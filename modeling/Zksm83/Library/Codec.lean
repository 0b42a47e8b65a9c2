import Mathlib.Data.List.Basic
import Zksm83.Library.Failure

/-!
# Codecs

An encoder that writes a value as a list of symbols, and a decoder that reads one from the front of
its input. A codec is exact on a set of values if decoding undoes encoding there, whatever stands
behind, and if everything that decodes is such a value with its own encoding in front of what is
left. Exact codecs compose, and an exact codec over whole inputs accepts nothing but encodings: no
second encoding, no proper front part of one and nothing longer.
-/

structure Codec (ε β α : Type) where
  encode : α → Except ε (List β)
  decode : List β → Except ε (α × List β)

namespace Codec

variable {ε β α γ : Type}

structure Exact (codec : Codec ε β α) (fits : α → Prop) : Prop where
  decode_encode {value : α} {bytes : List β} : fits value → codec.encode value = .ok bytes →
    ∀ rest, codec.decode (bytes ++ rest) = .ok (value, rest)
  encode_decode {input : List β} {value : α} {rest : List β} :
    codec.decode input = .ok (value, rest) →
      fits value ∧ ∃ bytes, codec.encode value = .ok bytes ∧ input = bytes ++ rest

theorem Exact.congr {codec : Codec ε β α} {fits fits' : α → Prop} (hexact : codec.Exact fits)
    (hfits : ∀ value, fits value ↔ fits' value) : codec.Exact fits' where
  decode_encode hvalue := hexact.decode_encode ((hfits _).mpr hvalue)
  encode_decode hdecode :=
    ⟨(hfits _).mp (hexact.encode_decode hdecode).1, (hexact.encode_decode hdecode).2⟩

/-! ## Composition -/

/-- Two values one after the other. -/
def pair (first : Codec ε β α) (second : Codec ε β γ) : Codec ε β (α × γ) where
  encode value := do
    let bytes ← first.encode value.1
    let bytes' ← second.encode value.2
    return bytes ++ bytes'
  decode input := do
    let (value, rest) ← first.decode input
    let (value', rest') ← second.decode rest
    return ((value, value'), rest')

theorem Exact.pair {first : Codec ε β α} {second : Codec ε β γ} {fits : α → Prop}
    {fits' : γ → Prop} (hfirst : first.Exact fits) (hsecond : second.Exact fits') :
    (first.pair second).Exact (fun value => fits value.1 ∧ fits' value.2) where
  decode_encode := by
    rintro ⟨value, value'⟩ bytes ⟨hfits, hfits'⟩ hencode rest
    obtain ⟨front, hfront, hencode⟩ := Except.of_bind_eq_ok hencode
    obtain ⟨back, hback, hencode⟩ := Except.of_bind_eq_ok hencode
    cases hencode
    show (first.decode (front ++ back ++ rest) >>= _) = _
    rw [List.append_assoc, hfirst.decode_encode hfits hfront]
    show (second.decode (back ++ rest) >>= _) = _
    rw [hsecond.decode_encode hfits' hback]
    rfl
  encode_decode := by
    intro input value rest hdecode
    obtain ⟨⟨value, middle⟩, hvalue, hdecode⟩ := Except.of_bind_eq_ok hdecode
    obtain ⟨⟨value', rest'⟩, hvalue', hdecode⟩ := Except.of_bind_eq_ok hdecode
    cases hdecode
    obtain ⟨hfits, front, hfront, rfl⟩ := hfirst.encode_decode hvalue
    obtain ⟨hfits', back, hback, rfl⟩ := hsecond.encode_decode hvalue'
    refine ⟨⟨hfits, hfits'⟩, front ++ back, ?_, (List.append_assoc _ _ _).symm⟩
    show (first.encode value >>= _) = _
    rw [hfront]
    show (second.encode value' >>= _) = _
    rw [hback]
    rfl

/-- The codec of a type whose values are those of another, written as these. -/
def via (codec : Codec ε β γ) (fields : α → γ) (build : γ → α) : Codec ε β α where
  encode value := codec.encode (fields value)
  decode input := do
    let (value, rest) ← codec.decode input
    return (build value, rest)

theorem encode_via (codec : Codec ε β γ) (fields : α → γ) (build : γ → α) (value : α) :
    (codec.via fields build).encode value = codec.encode (fields value) := rfl

theorem Exact.via {codec : Codec ε β γ} {fits : γ → Prop} (hexact : codec.Exact fits)
    {fields : α → γ} {build : γ → α} (hbuild : ∀ value, build (fields value) = value)
    (hfields : ∀ value, fields (build value) = value) :
    (codec.via fields build).Exact (fun value => fits (fields value)) where
  decode_encode := by
    intro value bytes hfits hencode rest
    show (codec.decode (bytes ++ rest) >>= _) = _
    rw [hexact.decode_encode hfits hencode]
    exact congrArg (fun value => Except.ok (value, rest)) (hbuild value)
  encode_decode := by
    intro input value rest hdecode
    obtain ⟨⟨inner, rest⟩, hinner, hdecode⟩ := Except.of_bind_eq_ok hdecode
    cases hdecode
    show fits (fields (build inner)) ∧ ∃ bytes, codec.encode (fields (build inner)) = _ ∧ _
    rw [hfields]
    exact hexact.encode_decode hinner

/-- The codec of a type whose values have codes, not every code being in use. -/
def viaCode (codec : Codec ε β γ) (code : α → γ) (fromCode : γ → Option α) (unknown : ε) :
    Codec ε β α where
  encode value := codec.encode (code value)
  decode input := do
    let (encoded, rest) ← codec.decode input
    match fromCode encoded with
    | some value => return (value, rest)
    | none => throw unknown

theorem Exact.viaCode {codec : Codec ε β γ} {fits : γ → Prop} (hexact : codec.Exact fits)
    {code : α → γ} {fromCode : γ → Option α} {unknown : ε}
    (hcode : ∀ encoded value, fromCode encoded = some value ↔ code value = encoded) :
    (codec.viaCode code fromCode unknown).Exact (fun value => fits (code value)) where
  decode_encode := by
    intro value bytes hfits hencode rest
    show (codec.decode (bytes ++ rest) >>= _) = _
    rw [hexact.decode_encode hfits hencode]
    show (match fromCode (code value) with | some value => _ | none => _) = _
    rw [(hcode _ _).mpr rfl]
    rfl
  encode_decode := by
    intro input value rest hdecode
    obtain ⟨⟨encoded, rest'⟩, hencoded, hread⟩ := Except.of_bind_eq_ok hdecode
    cases hvalue : fromCode encoded with
    | none =>
      simp only [hvalue] at hread
      cases hread
    | some decoded =>
      simp only [hvalue] at hread
      cases hread
      obtain rfl := (hcode _ _).mp hvalue
      exact hexact.encode_decode hencoded

/-- A value behind a header that is computed from it and that its decoder needs. -/
def headed (header : Codec ε β γ) (key : α → γ) (body : γ → Codec ε β α) : Codec ε β α where
  encode value := do
    let bytes ← header.encode (key value)
    let bytes' ← (body (key value)).encode value
    return bytes ++ bytes'
  decode input := do
    let (head, rest) ← header.decode input
    (body head).decode rest

theorem Exact.headed {header : Codec ε β γ} {fitsHeader : γ → Prop} {key : α → γ}
    {body : γ → Codec ε β α} {fits : α → Prop} (hheader : header.Exact fitsHeader)
    (hbody : ∀ head, (body head).Exact (fun value => fits value ∧ key value = head)) :
    (headed header key body).Exact (fun value => fitsHeader (key value) ∧ fits value) where
  decode_encode := by
    rintro value bytes ⟨hkey, hvalue⟩ hencode rest
    obtain ⟨front, hfront, hencode⟩ := Except.of_bind_eq_ok hencode
    obtain ⟨back, hback, hencode⟩ := Except.of_bind_eq_ok hencode
    cases hencode
    show (header.decode (front ++ back ++ rest) >>= _) = _
    rw [List.append_assoc, hheader.decode_encode hkey hfront]
    exact (hbody (key value)).decode_encode ⟨hvalue, rfl⟩ hback rest
  encode_decode := by
    intro input value rest hdecode
    obtain ⟨⟨head, middle⟩, hhead, hvalue⟩ := Except.of_bind_eq_ok hdecode
    obtain ⟨hkey, front, hfront, rfl⟩ := hheader.encode_decode hhead
    obtain ⟨⟨hfits, rfl⟩, back, hback, rfl⟩ := (hbody head).encode_decode hvalue
    refine ⟨⟨hkey, hfits⟩, front ++ back, ?_, (List.append_assoc _ _ _).symm⟩
    show (header.encode (key value) >>= _) = _
    rw [hfront]
    show ((body (key value)).encode value >>= _) = _
    rw [hback]
    rfl

/-! ## Sequences -/

variable (codec : Codec ε β α)

def encodeMany : List α → Except ε (List β)
  | [] => .ok []
  | value :: values => do
    let bytes ← codec.encode value
    let bytes' ← encodeMany values
    return bytes ++ bytes'

theorem encodeMany_replicate {value : α} {bytes : List β} (hencode : codec.encode value = .ok bytes)
    (count : ℕ) :
    codec.encodeMany (List.replicate count value) = .ok (List.replicate count bytes).flatten := by
  induction count with
  | zero => rfl
  | succ count ih =>
    exact Except.bind_eq_ok.mpr ⟨bytes, hencode, Except.bind_eq_ok.mpr ⟨_, ih, rfl⟩⟩

theorem encodeMany_append {values more : List α} {bytes bytes' : List β}
    (hvalues : codec.encodeMany values = .ok bytes) (hmore : codec.encodeMany more = .ok bytes') :
    codec.encodeMany (values ++ more) = .ok (bytes ++ bytes') := by
  induction values generalizing bytes with
  | nil =>
    cases hvalues
    exact hmore
  | cons value values ih =>
    obtain ⟨front, hfront, hvalues⟩ := Except.of_bind_eq_ok hvalues
    obtain ⟨back, hback, hvalues⟩ := Except.of_bind_eq_ok hvalues
    cases hvalues
    rw [List.append_assoc]
    exact Except.bind_eq_ok.mpr ⟨front, hfront, Except.bind_eq_ok.mpr ⟨_, ih hback, rfl⟩⟩

def decodeMany : ℕ → List β → Except ε (List α × List β)
  | 0, input => .ok ([], input)
  | count + 1, input => do
    let (value, rest) ← codec.decode input
    let (values, rest') ← decodeMany count rest
    return (value :: values, rest')

variable {codec} {fits : α → Prop} (hexact : codec.Exact fits)

include hexact

theorem Exact.decodeMany_encodeMany {values : List α} {bytes : List β}
    (hfits : ∀ value ∈ values, fits value) (hencode : codec.encodeMany values = .ok bytes)
    (rest : List β) : codec.decodeMany values.length (bytes ++ rest) = .ok (values, rest) := by
  induction values generalizing bytes with
  | nil =>
    cases hencode
    rfl
  | cons value values ih =>
    obtain ⟨front, hfront, hencode⟩ := Except.of_bind_eq_ok hencode
    obtain ⟨back, hback, hencode⟩ := Except.of_bind_eq_ok hencode
    cases hencode
    show (codec.decode (front ++ back ++ rest) >>= _) = _
    rw [List.append_assoc, hexact.decode_encode (hfits value (List.mem_cons_self ..)) hfront]
    show (codec.decodeMany values.length (back ++ rest) >>= _) = _
    rw [ih (fun later hmem => hfits later (List.mem_cons_of_mem _ hmem)) hback]
    rfl

theorem Exact.encodeMany_decodeMany {count : ℕ} {input rest : List β} {values : List α}
    (hdecode : codec.decodeMany count input = .ok (values, rest)) :
    values.length = count ∧ (∀ value ∈ values, fits value) ∧
      ∃ bytes, codec.encodeMany values = .ok bytes ∧ input = bytes ++ rest := by
  induction count generalizing input values with
  | zero =>
    cases hdecode
    exact ⟨rfl, by simp, [], rfl, rfl⟩
  | succ count ih =>
    obtain ⟨⟨value, middle⟩, hvalue, hdecode⟩ := Except.of_bind_eq_ok hdecode
    obtain ⟨⟨later, rest'⟩, hlater, hdecode⟩ := Except.of_bind_eq_ok hdecode
    cases hdecode
    obtain ⟨hhead, front, hfront, rfl⟩ := hexact.encode_decode hvalue
    obtain ⟨hlength, htail, back, hback, rfl⟩ := ih hlater
    refine ⟨by rw [List.length_cons, hlength], List.forall_mem_cons.mpr ⟨hhead, htail⟩,
      front ++ back, ?_, (List.append_assoc _ _ _).symm⟩
    show (codec.encode value >>= _) = _
    rw [hfront]
    show (codec.encodeMany later >>= _) = _
    rw [hback]
    rfl

omit hexact

/-- A list, its length in front. -/
def counted (count : Codec ε β ℕ) (codec : Codec ε β α) : Codec ε β (List α) where
  encode values := do
    let bytes ← count.encode values.length
    let bytes' ← codec.encodeMany values
    return bytes ++ bytes'
  decode input := do
    let (length, rest) ← count.decode input
    codec.decodeMany length rest

include hexact

theorem Exact.counted {count : Codec ε β ℕ} {fitsCount : ℕ → Prop}
    (hcount : count.Exact fitsCount) :
    (counted count codec).Exact
      (fun values => fitsCount values.length ∧ ∀ value ∈ values, fits value) where
  decode_encode := by
    rintro values bytes ⟨hlength, hvalues⟩ hencode rest
    obtain ⟨front, hfront, hencode⟩ := Except.of_bind_eq_ok hencode
    obtain ⟨back, hback, hencode⟩ := Except.of_bind_eq_ok hencode
    cases hencode
    show (count.decode (front ++ back ++ rest) >>= _) = _
    rw [List.append_assoc, hcount.decode_encode hlength hfront]
    exact hexact.decodeMany_encodeMany hvalues hback rest
  encode_decode := by
    intro input values rest hdecode
    obtain ⟨⟨length, middle⟩, hlength, hmany⟩ := Except.of_bind_eq_ok hdecode
    obtain ⟨hfits, front, hfront, rfl⟩ := hcount.encode_decode hlength
    obtain ⟨rfl, hvalues, back, hback, rfl⟩ := hexact.encodeMany_decodeMany hmany
    refine ⟨⟨hfits, hvalues⟩, front ++ back, ?_, (List.append_assoc _ _ _).symm⟩
    show (count.encode values.length >>= _) = _
    rw [hfront]
    show (codec.encodeMany values >>= _) = _
    rw [hback]
    rfl

omit hexact

/-- As many values as a fixed count, with nothing in front. -/
def vector (codec : Codec ε β α) (count : ℕ) (mismatch : ε) : Codec ε β (Vector α count) where
  encode values := codec.encodeMany values.toList
  decode input := do
    let (values, rest) ← codec.decodeMany count input
    if h : values.length = count then return (⟨values.toArray, h⟩, rest) else throw mismatch

theorem encode_vector (count : ℕ) (mismatch : ε) (values : Vector α count) :
    (codec.vector count mismatch).encode values = codec.encodeMany values.toList := rfl

include hexact

theorem Exact.vector (count : ℕ) (mismatch : ε) :
    (codec.vector count mismatch).Exact (fun values => ∀ value ∈ values.toList, fits value) where
  decode_encode := by
    intro values bytes hvalues hencode rest
    have hlength : values.toList.length = count := values.length_toList
    have hmany := hexact.decodeMany_encodeMany hvalues hencode rest
    rw [hlength] at hmany
    show (codec.decodeMany count (bytes ++ rest) >>= _) = _
    rw [hmany]
    show (if h : values.toList.length = count then _ else _) = _
    rw [dif_pos hlength]
    exact congrArg (fun values => Except.ok (values, rest)) (Vector.toList_inj.mp rfl)
  encode_decode := by
    intro input values rest hdecode
    obtain ⟨⟨list, rest'⟩, hlist, hread⟩ := Except.of_bind_eq_ok hdecode
    obtain ⟨hlength, hvalues, hbytes⟩ := hexact.encodeMany_decodeMany hlist
    simp only [dif_pos hlength] at hread
    cases hread
    exact ⟨hvalues, hbytes⟩

omit hexact

/-! ## Whole inputs -/

/-- The decoder that has to use up its input. -/
def decodeAll (codec : Codec ε β α) (trailing : ε) (input : List β) : Except ε α := do
  let (value, rest) ← codec.decode input
  if rest.isEmpty then return value else throw trailing

end Codec

/-- An encoder and a decoder of whole inputs that undo each other: every value that fits decodes from
its encoding, and what decodes fits and is encoded as the input it came from. -/
structure RoundTrips {ε ε' β α : Type} (encode : α → Except ε (List β))
    (decode : List β → Except ε' α) (fits : α → Prop) : Prop where
  decode_encode {value : α} {bytes : List β} : fits value → encode value = .ok bytes →
    decode bytes = .ok value
  encode_decode {bytes : List β} {value : α} : decode bytes = .ok value →
    fits value ∧ encode value = .ok bytes

/-- No encoding stands in front of another one. -/
def PrefixFree {ε β α : Type} (encode : α → Except ε (List β)) (fits : α → Prop) : Prop :=
  ∀ {value value' bytes rest}, fits value → fits value' → encode value = .ok bytes →
    encode value' = .ok (bytes ++ rest) → rest = []

/-- An encoder and a decoder of whole inputs that undo each other, and no proper front part and no
continuation of an encoding is accepted. -/
structure Canonical {ε ε' β α : Type} (encode : α → Except ε (List β))
    (decode : List β → Except ε' α) (fits : α → Prop) : Prop extends
    RoundTrips encode decode fits where
  decode_take {value : α} {bytes : List β} : fits value → encode value = .ok bytes →
    ∀ count < bytes.length, ∀ other, decode (bytes.take count) ≠ .ok other
  decode_append {value : α} {bytes : List β} : fits value → encode value = .ok bytes →
    ∀ rest ≠ [], ∀ other, decode (bytes ++ rest) ≠ .ok other

theorem RoundTrips.canonical {ε ε' β α : Type} {encode : α → Except ε (List β)}
    {decode : List β → Except ε' α} {fits : α → Prop} (htrips : RoundTrips encode decode fits)
    (hfree : PrefixFree encode fits) : Canonical encode decode fits where
  toRoundTrips := htrips
  decode_take := by
    intro value bytes hfits hencode count hcount other htake
    obtain ⟨hother, hencode'⟩ := htrips.encode_decode htake
    rw [← List.take_append_drop count bytes] at hencode
    have hlength := congrArg List.length (hfree hother hfits hencode' hencode)
    rw [List.length_drop, List.length_nil] at hlength
    omega
  decode_append := by
    intro value bytes hfits hencode rest hrest other hlonger
    obtain ⟨hother, hencode'⟩ := htrips.encode_decode hlonger
    exact hrest (hfree hfits hother hencode hencode')

namespace Codec

variable {ε β α γ : Type} {codec : Codec ε β α} {fits : α → Prop}

theorem Exact.roundTrips (hexact : codec.Exact fits) (trailing : ε) :
    RoundTrips codec.encode (codec.decodeAll trailing) fits where
  decode_encode := by
    intro value bytes hfits hencode
    have hdecode := hexact.decode_encode hfits hencode []
    rw [List.append_nil] at hdecode
    show (codec.decode bytes >>= _) = _
    rw [hdecode]
    rfl
  encode_decode := by
    intro bytes value hdecode
    obtain ⟨⟨value, rest⟩, hvalue, hrest⟩ := Except.of_bind_eq_ok hdecode
    obtain ⟨hfits, front, hfront, rfl⟩ := hexact.encode_decode hvalue
    cases rest with
    | nil =>
      cases hrest
      rw [List.append_nil]
      exact ⟨hfits, hfront⟩
    | cons => cases hrest

/-- An encoding of an exact codec is not the front of another one. -/
theorem Exact.prefixFree (hexact : codec.Exact fits) : PrefixFree codec.encode fits := by
  intro value value' bytes rest hfits hfits' hencode hencode'
  have hdecode := hexact.decode_encode hfits' hencode' []
  rw [List.append_nil, hexact.decode_encode hfits hencode rest] at hdecode
  cases hdecode
  rfl

/-! ## Values encoded on their own -/

/-- A codec under other errors. -/
def mapError {ε' : Type} (error : ε → ε') (codec : Codec ε β α) : Codec ε' β α where
  encode value := (codec.encode value).mapError error
  decode input := (codec.decode input).mapError error

theorem Exact.mapError {ε' : Type} (hexact : codec.Exact fits) (error : ε → ε') :
    (codec.mapError error).Exact fits where
  decode_encode hfits hencode rest :=
    Except.mapError_eq_ok.mpr (hexact.decode_encode hfits (Except.mapError_eq_ok.mp hencode) rest)
  encode_decode hdecode := by
    obtain ⟨hfits, bytes, hencode, hinput⟩ :=
      hexact.encode_decode (Except.mapError_eq_ok.mp hdecode)
    exact ⟨hfits, bytes, Except.mapError_eq_ok.mpr hencode, hinput⟩

/-- A value whose encoding stands in a frame. -/
def framed (frame : Codec ε β (List β)) (encode : α → Except ε (List β))
    (decode : List β → Except ε α) : Codec ε β α where
  encode value := do
    let bytes ← encode value
    frame.encode bytes
  decode input := do
    let (bytes, rest) ← frame.decode input
    let value ← decode bytes
    return (value, rest)

theorem decode_framed {frame : Codec ε β (List β)} {encode : α → Except ε (List β)}
    {decode : List β → Except ε α} {input rest : List β} {value : α} :
    (framed frame encode decode).decode input = .ok (value, rest) ↔
      ∃ bytes, frame.decode input = .ok (bytes, rest) ∧ decode bytes = .ok value := by
  constructor
  · intro h
    obtain ⟨⟨bytes, rest'⟩, hbytes, h⟩ := Except.of_bind_eq_ok h
    obtain ⟨value', hvalue, h⟩ := Except.of_bind_eq_ok h
    cases h
    exact ⟨bytes, hbytes, hvalue⟩
  · rintro ⟨bytes, hbytes, hvalue⟩
    exact Except.bind_eq_ok.mpr ⟨_, hbytes, Except.bind_eq_ok.mpr ⟨_, hvalue, rfl⟩⟩

theorem Exact.framed {frame : Codec ε β (List β)} {fitsFrame : List β → Prop}
    (hframe : frame.Exact fitsFrame) {encode : α → Except ε (List β)}
    {decode : List β → Except ε α} (hinner : RoundTrips encode decode fits)
    (hfitsFrame : ∀ value bytes, encode value = .ok bytes → fitsFrame bytes) :
    (framed frame encode decode).Exact fits where
  decode_encode := by
    intro value bytes hfits hencode rest
    obtain ⟨inner, hinnerBytes, hbytes⟩ := Except.of_bind_eq_ok hencode
    show (frame.decode (bytes ++ rest) >>= _) = _
    rw [hframe.decode_encode (hfitsFrame value inner hinnerBytes) hbytes]
    show (decode inner >>= _) = _
    rw [hinner.decode_encode hfits hinnerBytes]
    rfl
  encode_decode := by
    intro input value rest hdecode
    obtain ⟨⟨inner, rest⟩, hframed, hdecoded⟩ := Except.of_bind_eq_ok hdecode
    obtain ⟨value, hvalue, hresult⟩ := Except.of_bind_eq_ok hdecoded
    cases hresult
    obtain ⟨hfits, hinnerBytes⟩ := hinner.encode_decode hvalue
    obtain ⟨_, bytes, hbytes, hinput⟩ := hframe.encode_decode hframed
    refine ⟨hfits, bytes, ?_, hinput⟩
    show (encode value >>= _) = _
    rw [hinnerBytes]
    exact hbytes

end Codec
