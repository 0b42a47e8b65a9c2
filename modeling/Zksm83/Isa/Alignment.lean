import Zksm83.Isa.Table
import Zksm83.Library.Failure

/-!
# Aligned instructions

The uniform record of an instruction and its packing into one word. The packing appends the fields
from the lowest bit up and rejects a field that exceeds its width, so the word determines the
record. Bytes and words are natural numbers. After `alignment.rs`.
-/

namespace Zksm83

/-- The raw opcode key: zero for a primary opcode, one for a CB-prefixed opcode. -/
structure AlignmentKey where
  cbPrefix : ℕ
  opcode : ℕ
  deriving DecidableEq, Repr

structure AlignedInstruction where
  key : AlignmentKey
  familyId : ℕ
  operation : ℕ
  argumentZero : ℕ
  argumentOne : ℕ
  byteLen : ℕ
  baseMCycles : ℕ
  takenMCycles : ℕ
  pcRule : ℕ
  flagRule : ℕ
  registerReads : ℕ
  registerWrites : ℕ
  opcodeFetches : ℕ
  immediateReads : ℕ
  dataReads : ℕ
  dataWrites : ℕ
  takenDataReads : ℕ
  takenDataWrites : ℕ
  deriving DecidableEq, Repr

/-- A field that exceeds its fixed width. -/
structure AlignmentPackingError where
  field : String
  value : ℕ
  bits : ℕ
  deriving DecidableEq, Repr

/-- A field of a packing: its name, its value and its width. -/
structure PackedField where
  name : String
  value : ℕ
  bits : ℕ
  deriving DecidableEq, Repr

def PackedField.Fits (field : PackedField) : Prop := field.value < 2 ^ field.bits

instance (field : PackedField) : Decidable field.Fits := Nat.decLt _ _

/-- The word and the next free bit after one more field. -/
def appendPacked (state : ℕ × ℕ) (field : PackedField) :
    Except AlignmentPackingError (ℕ × ℕ) :=
  let (packed, shift) := state
  let limit := if field.bits < 64 then 2 ^ field.bits else 0
  if limit ≤ field.value ∨ 128 < shift + field.bits then
    .error ⟨field.name, field.value, field.bits⟩
  else .ok (packed ||| (field.value <<< shift) % 2 ^ 128, min (shift + field.bits) 255)

namespace AlignedInstruction

/-- The fields of a record in packing order. -/
def packedFields (row : AlignedInstruction) : List PackedField :=
  [⟨"prefix", row.key.cbPrefix, 1⟩,
    ⟨"opcode", row.key.opcode, 8⟩,
    ⟨"family_id", row.familyId, 8⟩,
    ⟨"operation", row.operation, 8⟩,
    ⟨"argument_zero", row.argumentZero, 8⟩,
    ⟨"argument_one", row.argumentOne, 8⟩,
    ⟨"byte_len", row.byteLen, 2⟩,
    ⟨"base_m_cycles", row.baseMCycles, 4⟩,
    ⟨"taken_m_cycles", row.takenMCycles, 4⟩,
    ⟨"pc_rule", row.pcRule, 3⟩,
    ⟨"flag_rule", row.flagRule, 8⟩,
    ⟨"register_reads", row.registerReads, 16⟩,
    ⟨"register_writes", row.registerWrites, 16⟩,
    ⟨"opcode_fetches", row.opcodeFetches, 2⟩,
    ⟨"immediate_reads", row.immediateReads, 2⟩,
    ⟨"data_reads", row.dataReads, 2⟩,
    ⟨"data_writes", row.dataWrites, 2⟩,
    ⟨"taken_data_reads", row.takenDataReads, 2⟩,
    ⟨"taken_data_writes", row.takenDataWrites, 2⟩]

def packed (row : AlignedInstruction) : Except AlignmentPackingError ℕ := do
  let (packed, _) ← row.packedFields.foldlM appendPacked (0, 0)
  return packed

/-- The mask of a component set, gathered bit by bit in table order. -/
def registerMask (components : List IsaTable.StateComponent) : ℕ :=
  IsaTable.StateComponent.all.zipIdx.foldl (fun mask entry =>
    if entry.1 ∈ components then mask ||| 1 <<< entry.2 else mask) 0

/-- The record of a decoded instruction. -/
def fromDecoded (instruction : DecodedInstruction) : AlignedInstruction :=
  let key := IsaTable.alignmentKey instruction.encoding
  let codes := IsaTable.descriptor instruction.operation
  let flags := IsaTable.flagEffect instruction.operation
  let bus := IsaTable.busPattern instruction
  { key := ⟨key.1, key.2⟩
    familyId := IsaTable.classCode instruction.operation
    operation := codes.1
    argumentZero := codes.2.1
    argumentOne := codes.2.2
    byteLen := instruction.byteLen
    baseMCycles := instruction.baseMCycles
    takenMCycles := instruction.takenMCycles.getD 0
    pcRule := IsaTable.pcRule instruction.operation
    flagRule := IsaTable.flagActionCode flags.zero |||
      IsaTable.flagActionCode flags.subtract <<< 2 |||
      IsaTable.flagActionCode flags.halfCarry <<< 4 ||| IsaTable.flagActionCode flags.carry <<< 6
    registerReads := registerMask (IsaTable.stateReads instruction.operation)
    registerWrites := registerMask (IsaTable.stateWrites instruction.operation)
    opcodeFetches := bus.opcodeFetches
    immediateReads := bus.immediateReads
    dataReads := bus.dataReads
    dataWrites := bus.dataWrites
    takenDataReads := bus.takenDataReads
    takenDataWrites := bus.takenDataWrites }

end AlignedInstruction

/-! ## Packed words -/

namespace IsaTable

/-- Fields within their widths fill no more than their widths. -/
theorem packFields_lt {fields : List (ℕ × ℕ)} (hfit : ∀ field ∈ fields, field.1 < 2 ^ field.2) :
    packFields fields < 2 ^ (fields.map Prod.snd).sum := by
  induction fields with
  | nil => simp [packFields]
  | cons field fields ih =>
    have hfield := hfit field List.mem_cons_self
    have hrest := ih (fun other hother => hfit other (List.mem_cons_of_mem _ hother))
    rw [List.map_cons, List.sum_cons, pow_add]
    show field.1 + 2 ^ field.2 * packFields fields < _
    calc field.1 + 2 ^ field.2 * packFields fields
        < 2 ^ field.2 + 2 ^ field.2 * packFields fields := by omega
      _ = 2 ^ field.2 * (packFields fields + 1) := by ring
      _ ≤ 2 ^ field.2 * 2 ^ (fields.map Prod.snd).sum := Nat.mul_le_mul_left _ hrest

/-- A word determines the fields within their widths. -/
theorem packFields_injective {fields fields' : List (ℕ × ℕ)}
    (hwidths : fields.map Prod.snd = fields'.map Prod.snd)
    (hfit : ∀ field ∈ fields, field.1 < 2 ^ field.2)
    (hfit' : ∀ field ∈ fields', field.1 < 2 ^ field.2)
    (heq : packFields fields = packFields fields') : fields = fields' := by
  induction fields generalizing fields' with
  | nil =>
    rw [List.map_nil] at hwidths
    exact (List.map_eq_nil_iff.mp hwidths.symm).symm
  | cons field fields ih =>
    cases fields' with
    | nil => exact nomatch hwidths
    | cons field' fields' =>
      rw [List.map_cons, List.map_cons, List.cons.injEq] at hwidths
      have hvalue := hfit field List.mem_cons_self
      have hvalue' := hfit' field' List.mem_cons_self
      change field.1 + 2 ^ field.2 * packFields fields =
        field'.1 + 2 ^ field'.2 * packFields fields' at heq
      rw [← hwidths.1] at heq hvalue'
      have hlow := congrArg (· % 2 ^ field.2) heq
      simp only [Nat.add_mul_mod_self_left, Nat.mod_eq_of_lt hvalue, Nat.mod_eq_of_lt hvalue']
        at hlow
      have hhigh : packFields fields = packFields fields' := by
        rw [hlow, Nat.add_left_cancel_iff] at heq
        exact Nat.eq_of_mul_eq_mul_left (by positivity) heq
      rw [ih hwidths.2 (fun other hother => hfit other (List.mem_cons_of_mem _ hother))
        (fun other hother => hfit' other (List.mem_cons_of_mem _ hother)) hhigh,
        Prod.ext hlow hwidths.1]

end IsaTable

/-- The value and the width of a field. -/
def PackedField.entry (field : PackedField) : ℕ × ℕ := (field.value, field.bits)

/-- A field that fits lands above the bits already taken. -/
theorem appendPacked_eq_ok {packed shift : ℕ} {field : PackedField} {state : ℕ × ℕ}
    (hpacked : packed < 2 ^ shift) (hbits : field.bits < 64) (hroom : shift + field.bits ≤ 128) :
    appendPacked (packed, shift) field = .ok state ↔
      field.Fits ∧ state = (packed + 2 ^ shift * field.value, shift + field.bits) := by
  by_cases hfit : field.Fits
  · have hvalue : field.value <<< shift < 2 ^ 128 := by
      rw [Nat.shiftLeft_eq]
      calc field.value * 2 ^ shift < 2 ^ field.bits * 2 ^ shift :=
            Nat.mul_lt_mul_of_pos_right hfit (by positivity)
        _ = 2 ^ (shift + field.bits) := by rw [pow_add, mul_comm]
        _ ≤ 2 ^ 128 := Nat.pow_le_pow_right (by omega) hroom
    have hword : packed ||| (field.value <<< shift) % 2 ^ 128 =
        packed + 2 ^ shift * field.value := by
      rw [Nat.mod_eq_of_lt hvalue, Nat.or_comm, ← Nat.shiftLeft_add_eq_or_of_lt hpacked,
        Nat.shiftLeft_eq]
      ring
    have hnext : min (shift + field.bits) 255 = shift + field.bits := by omega
    have haccept : ¬ (2 ^ field.bits ≤ field.value ∨ 128 < shift + field.bits) := by
      unfold PackedField.Fits at hfit
      omega
    simp only [appendPacked, if_pos hbits, if_neg haccept, hword, hnext, Except.ok.injEq, hfit,
      true_and]
    exact eq_comm
  · have hreject : 2 ^ field.bits ≤ field.value ∨ 128 < shift + field.bits :=
      .inl (Nat.le_of_not_lt hfit)
    simp only [appendPacked, if_pos hbits, if_pos hreject, hfit, false_and, reduceCtorEq]

/-- A run of appended fields is accepted exactly when every field fits, and packs them all. -/
theorem foldlM_appendPacked {fields : List PackedField} {packed shift : ℕ} {state : ℕ × ℕ}
    (hpacked : packed < 2 ^ shift) (hbits : ∀ field ∈ fields, field.bits < 64)
    (hroom : shift + (fields.map PackedField.bits).sum ≤ 128) :
    fields.foldlM appendPacked (packed, shift) = .ok state ↔
      (∀ field ∈ fields, field.Fits) ∧
        state = (packed + 2 ^ shift * IsaTable.packFields (fields.map PackedField.entry),
          shift + (fields.map PackedField.bits).sum) := by
  induction fields generalizing packed shift with
  | nil => simp [IsaTable.packFields, pure, Except.pure, eq_comm]
  | cons field fields ih =>
    rw [List.map_cons, List.sum_cons] at hroom
    have hfirst := fun state => @appendPacked_eq_ok packed shift field state hpacked
      (hbits field List.mem_cons_self) (by omega)
    by_cases hfit : field.Fits
    · have hnext : packed + 2 ^ shift * field.value < 2 ^ (shift + field.bits) := by
        calc packed + 2 ^ shift * field.value < 2 ^ shift * (field.value + 1) := by
              rw [mul_add, mul_one]
              omega
          _ ≤ 2 ^ shift * 2 ^ field.bits := Nat.mul_le_mul_left _ hfit
          _ = 2 ^ (shift + field.bits) := (pow_add ..).symm
      have hstep := (hfirst _).mpr ⟨hfit, rfl⟩
      rw [List.foldlM_cons, hstep]
      show List.foldlM appendPacked _ fields = _ ↔ _
      rw [ih hnext (fun other hother => hbits other (List.mem_cons_of_mem _ hother)) (by omega)]
      have hword : packed + 2 ^ shift * field.value +
          2 ^ (shift + field.bits) * IsaTable.packFields (fields.map PackedField.entry) =
          packed + 2 ^ shift * IsaTable.packFields ((field :: fields).map PackedField.entry) := by
        rw [List.map_cons]
        show _ = packed + 2 ^ shift *
          (field.value + 2 ^ field.bits * IsaTable.packFields (fields.map PackedField.entry))
        ring
      have hbitsSum : shift + field.bits + (fields.map PackedField.bits).sum =
          shift + ((field :: fields).map PackedField.bits).sum := by
        rw [List.map_cons, List.sum_cons, add_assoc]
      rw [hword, hbitsSum, List.forall_mem_cons]
      simp only [hfit, true_and]
    · have herror : ∃ error, appendPacked (packed, shift) field = .error error := by
        cases happend : appendPacked (packed, shift) field with
        | error error => exact ⟨error, rfl⟩
        | ok state => exact absurd ((hfirst state).mp happend).1 hfit
      obtain ⟨error, herror⟩ := herror
      rw [List.foldlM_cons, herror]
      simp [bind, Except.bind, hfit]

namespace AlignedInstruction

/-- A record packs exactly when all its fields fit, into its fields from the lowest bit up. -/
theorem packed_eq_ok {row : AlignedInstruction} {value : ℕ} :
    row.packed = .ok value ↔ (∀ field ∈ row.packedFields, field.Fits) ∧
      value = IsaTable.packFields (row.packedFields.map PackedField.entry) := by
  have hrun := fun state => @foldlM_appendPacked row.packedFields 0 0 state (by norm_num)
    (by simp [packedFields]) (by simp [packedFields])
  simp only [pow_zero, one_mul, zero_add] at hrun
  unfold packed
  constructor
  · intro hpacked
    obtain ⟨⟨reached, shift⟩, hfold, hvalue⟩ := Except.of_bind_eq_ok hpacked
    obtain ⟨hfit, hstate⟩ := (hrun _).mp hfold
    have hreached : reached = value := (Except.ok.injEq _ _).mp hvalue
    exact ⟨hfit, hreached.symm.trans (Prod.mk.inj hstate).1⟩
  · intro ⟨hfit, hvalue⟩
    rw [(hrun _).mpr ⟨hfit, rfl⟩, hvalue]
    rfl

/-- A packed value fills no more than the declared 106 bits. -/
theorem packed_lt {row : AlignedInstruction} {value : ℕ} (hpacked : row.packed = .ok value) :
    value < 2 ^ 106 := by
  obtain ⟨hfit, hvalue⟩ := packed_eq_ok.mp hpacked
  have hbound := @IsaTable.packFields_lt (row.packedFields.map PackedField.entry)
    (List.forall_mem_map.mpr hfit)
  have hwidth : ((row.packedFields.map PackedField.entry).map Prod.snd).sum = 106 := by
    simp [packedFields, PackedField.entry]
  rw [hwidth] at hbound
  rw [hvalue]
  exact hbound

/-- The fields of a record determine it. -/
theorem packedFields_injective : Function.Injective packedFields := by
  intro row row' heq
  obtain ⟨⟨cbPrefix, opcode⟩⟩ := row
  obtain ⟨⟨cbPrefix', opcode'⟩⟩ := row'
  simp only [packedFields, List.cons.injEq, PackedField.mk.injEq, true_and, and_true] at heq
  simp only [heq]

/-- A packed value determines the record. -/
theorem packed_injective {row row' : AlignedInstruction} {value : ℕ}
    (hpacked : row.packed = .ok value) (hpacked' : row'.packed = .ok value) : row = row' := by
  obtain ⟨hfit, hvalue⟩ := packed_eq_ok.mp hpacked
  obtain ⟨hfit', hvalue'⟩ := packed_eq_ok.mp hpacked'
  have hentries := IsaTable.packFields_injective (by simp [packedFields, PackedField.entry])
    (List.forall_mem_map.mpr hfit) (List.forall_mem_map.mpr hfit') (hvalue.symm.trans hvalue')
  refine packedFields_injective ?_
  simp only [packedFields, List.map_cons, List.map_nil, PackedField.entry, List.cons.injEq,
    Prod.mk.injEq, and_true] at hentries
  simp only [packedFields, hentries]

/-! ## Records of the table -/

/-- Bits gathered from a fresh position up add up. -/
theorem foldl_or_eq_sum {α : Type} (selected : α → Prop) [DecidablePred selected]
    (values : List α) (start mask : ℕ) (hmask : mask < 2 ^ start) :
    (values.zipIdx start).foldl (fun mask entry =>
        if selected entry.1 then mask ||| 1 <<< entry.2 else mask) mask =
      mask + ((values.zipIdx start).map (fun entry =>
        if selected entry.1 then 2 ^ entry.2 else 0)).sum := by
  induction values generalizing start mask with
  | nil => simp
  | cons value values ih =>
    have hnext : 2 ^ (start + 1) = 2 ^ start + 2 ^ start := by rw [pow_succ]; ring
    rw [List.zipIdx_cons, List.foldl_cons, List.map_cons, List.sum_cons]
    by_cases hselected : selected value
    · have hor : mask ||| 1 <<< start = mask + 2 ^ start := by
        rw [Nat.or_comm, ← Nat.shiftLeft_add_eq_or_of_lt hmask, Nat.shiftLeft_eq]
        ring
      simp only [hselected, if_true, hor]
      rw [ih (start + 1) (mask + 2 ^ start) (by omega), add_assoc]
    · simp only [hselected, if_false, zero_add]
      exact ih (start + 1) mask (by omega)

theorem registerMask_eq (components : List IsaTable.StateComponent) :
    registerMask components = IsaTable.componentMask components := by
  have hsum := foldl_or_eq_sum (· ∈ components) IsaTable.StateComponent.all 0 0 (by norm_num)
  rw [zero_add] at hsum
  exact hsum

/-- The packing of a decoded instruction is the record of the fixed table. -/
theorem packed_fromDecoded {instruction : DecodedInstruction} {value : ℕ}
    (hpacked : (fromDecoded instruction).packed = .ok value) :
    value = IsaTable.packedRecord instruction := by
  have hflags : ∀ zero subtract halfCarry carry : IsaTable.FlagAction,
      IsaTable.flagActionCode zero ||| IsaTable.flagActionCode subtract <<< 2 |||
        IsaTable.flagActionCode halfCarry <<< 4 ||| IsaTable.flagActionCode carry <<< 6 =
      IsaTable.flagActionCode zero + 4 * IsaTable.flagActionCode subtract +
        16 * IsaTable.flagActionCode halfCarry + 64 * IsaTable.flagActionCode carry := by
    intro zero subtract halfCarry carry
    cases zero <;> cases subtract <;> cases halfCarry <;> cases carry <;> rfl
  rw [(packed_eq_ok.mp hpacked).2]
  simp only [packedFields, fromDecoded, List.map_cons, List.map_nil, PackedField.entry,
    registerMask_eq, hflags]
  rfl

theorem registerMask_lt (components : List IsaTable.StateComponent) :
    registerMask components < 2 ^ 16 := by
  have hbound : IsaTable.componentMask components ≤
      (IsaTable.StateComponent.all.zipIdx.map (fun entry => 2 ^ entry.2)).sum := by
    refine List.sum_le_sum fun entry _ => ?_
    split
    · exact le_rfl
    · exact Nat.zero_le _
  rw [registerMask_eq]
  exact hbound.trans_lt (by decide)

/-- The fields of a record other than its two masks. -/
theorem decoded_fit :
    (List.range 512).all (fun address => (decodeAddress address).all fun instruction =>
      (fromDecoded instruction).packedFields.all fun field =>
        field.bits == 16 || decide field.Fits) = true := by
  decide +kernel

/-- Every row of the fixed table packs. -/
theorem packed_decoded {address : ℕ} (haddress : address < 512) {instruction : DecodedInstruction}
    (hdecode : decodeAddress address = some instruction) :
    (fromDecoded instruction).packed = .ok (IsaTable.packedRecord instruction) := by
  have hrow := List.all_eq_true.mp decoded_fit address (List.mem_range.mpr haddress)
  rw [hdecode, Option.all_some, List.all_eq_true] at hrow
  have hmasks : ∀ field ∈ (fromDecoded instruction).packedFields, field.bits = 16 →
      field.Fits := by
    simp only [packedFields, fromDecoded, List.forall_mem_cons, PackedField.Fits]
    simp only [Nat.reduceEqDiff, IsEmpty.forall_iff, true_and, forall_const, List.not_mem_nil,
      implies_true, and_true]
    exact ⟨registerMask_lt _, registerMask_lt _⟩
  have hpacked := packed_eq_ok.mpr ⟨fun field hfield => by
    rcases (Bool.or_eq_true _ _).mp (hrow field hfield) with hmask | hfit
    · exact hmasks field hfield (by simpa using hmask)
    · exact of_decide_eq_true hfit, rfl⟩
  rw [hpacked, packed_fromDecoded hpacked]

end AlignedInstruction

end Zksm83
