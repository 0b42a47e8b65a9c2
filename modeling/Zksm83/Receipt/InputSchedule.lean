import Zksm83.Receipt.NativeProver

/-!
# Input schedules

A private input may be given as a schedule: a length and the ranges that hold other bytes than zero.
The ranges may come in any order but must not be empty, leave the input or meet. Read
`schedule_expands` first. After `expand_schedule` of the native prover.
-/

namespace Zksm83.NativeProver

/-- The bytes from `start` on that end before `stop`. -/
structure InputSegment where
  start : ℕ
  stop : ℕ
  value : Byte
  deriving DecidableEq, Repr

structure InputSchedule where
  schema : String
  length : ℕ
  segments : List InputSegment
  deriving DecidableEq, Repr

inductive ScheduleError where
  | inputSchema (schema : String)
  | inputTooLarge (actual maximum : ℕ)
  | inputSegment (index : ℕ)
  deriving DecidableEq, Repr

abbrev inputScheduleSchema : String := "zksm83-input-schedule/v1"

/-! ## Expansion -/

/-- A list with the elements of a range overwritten. -/
def fillRange {α : Type} (values : List α) (start stop : ℕ) (value : α) : List α :=
  values.take start ++ List.replicate (stop - start) value ++ values.drop stop

/-- Assigns a range that is not empty and in which nothing has been assigned. -/
def assignSegment (expanded : List Byte × List Bool) (indexed : InputSegment × ℕ) :
    Except ScheduleError (List Byte × List Bool) := do
  let (bytes, assigned) := expanded
  let (segment, index) := indexed
  rejectIf (segment.stop < segment.start ∨ assigned.length < segment.stop) (.inputSegment index)
  rejectIf (segment.stop ≤ segment.start ∨
    (assigned.extract segment.start segment.stop).any id = true) (.inputSegment index)
  rejectIf (bytes.length < segment.stop) (.inputSegment index)
  return (fillRange bytes segment.start segment.stop segment.value,
    fillRange assigned segment.start segment.stop true)

def expandSchedule (schedule : InputSchedule) : Except ScheduleError (List Byte) := do
  rejectIf (schedule.schema ≠ inputScheduleSchema) (.inputSchema schedule.schema)
  rejectIf (maxInputBytes < schedule.length) (.inputTooLarge schedule.length maxInputBytes)
  let (bytes, _) ← schedule.segments.zipIdx.foldlM assignSegment
    (List.replicate schedule.length 0, List.replicate schedule.length false)
  return bytes

/-! ## Ranges -/

namespace InputSegment

def Contains (segment : InputSegment) (position : ℕ) : Prop :=
  segment.start ≤ position ∧ position < segment.stop

instance (segment : InputSegment) (position : ℕ) : Decidable (segment.Contains position) :=
  inferInstanceAs (Decidable (_ ∧ _))

/-- A range of an input of some length, with a byte in it. -/
def Within (segment : InputSegment) (length : ℕ) : Prop :=
  segment.start < segment.stop ∧ segment.stop ≤ length

/-- No position is in both ranges. -/
def Apart (segment other : InputSegment) : Prop :=
  ∀ position, segment.Contains position → ¬other.Contains position

theorem Apart.symm {segment other : InputSegment} (h : segment.Apart other) :
    other.Apart segment := fun position hother hsegment => h position hsegment hother

instance : Std.Symm Apart := ⟨fun _ _ => Apart.symm⟩

end InputSegment

/-- The byte at a position: that of the range around it, or zero. -/
def byteAt (segments : List InputSegment) (position : ℕ) : Byte :=
  ((segments.find? (·.Contains position)).map InputSegment.value).getD 0

def Assigned (segments : List InputSegment) (position : ℕ) : Prop :=
  ∃ segment ∈ segments, segment.Contains position

instance (segments : List InputSegment) (position : ℕ) : Decidable (Assigned segments position) :=
  inferInstanceAs (Decidable (∃ segment ∈ segments, _))

/-- What has been assigned when some ranges have been. -/
def expansion (length : ℕ) (segments : List InputSegment) : List Byte × List Bool :=
  ((List.range length).map (byteAt segments),
    (List.range length).map fun position => decide (Assigned segments position))

/-- Ranges of an input that do not meet. -/
structure Fits (length : ℕ) (segments : List InputSegment) : Prop where
  within : ∀ segment ∈ segments, segment.Within length
  apart : segments.Pairwise InputSegment.Apart

variable {length : ℕ} {done segments : List InputSegment} {segment : InputSegment}

theorem Fits.nil : Fits length [] := ⟨by simp, .nil⟩

theorem fits_append_singleton : Fits length (done ++ [segment]) ↔
    Fits length done ∧ segment.Within length ∧ ∀ other ∈ done, other.Apart segment := by
  constructor
  · rintro ⟨hwithin, hapart⟩
    rw [List.forall_mem_append, List.forall_mem_singleton] at hwithin
    obtain ⟨hdone, -, hsegment⟩ := List.pairwise_append.mp hapart
    exact ⟨⟨hwithin.1, hdone⟩, hwithin.2, fun other hother => hsegment other hother segment
      (List.mem_singleton_self segment)⟩
  · rintro ⟨⟨hwithin, hapart⟩, hsegment, hother⟩
    refine ⟨?_, List.pairwise_append.mpr ⟨hapart, List.pairwise_singleton _ _, ?_⟩⟩
    · rw [List.forall_mem_append, List.forall_mem_singleton]
      exact ⟨hwithin, hsegment⟩
    · intro other hmem after hafter
      rw [List.mem_singleton.mp hafter]
      exact hother other hmem

theorem Fits.of_append (h : Fits length (done ++ segments)) : Fits length done :=
  ⟨fun segment hmem => h.within segment (List.mem_append_left _ hmem),
    (List.pairwise_append.mp h.apart).1⟩

/-- The order of ranges does not matter for whether they fit. -/
theorem Fits.perm {others : List InputSegment} (h : Fits length segments)
    (hperm : segments.Perm others) : Fits length others :=
  ⟨fun segment hmem => h.within segment (hperm.mem_iff.mpr hmem),
    (hperm.pairwise_iff InputSegment.Apart.symm).mp h.apart⟩

theorem getElem?_fillRange {α : Type} {values : List α} {start stop : ℕ} (hstart : start ≤ stop)
    (hstop : stop ≤ values.length) (value : α) (position : ℕ) :
    (fillRange values start stop value)[position]? =
      if start ≤ position ∧ position < stop then some value else values[position]? := by
  have hfront : (values.take start).length = start := by
    rw [List.length_take]
    omega
  unfold fillRange
  rw [List.append_assoc]
  rcases lt_or_ge position start with hbefore | hafter
  · rw [List.getElem?_append_left (by omega), List.getElem?_take_of_lt hbefore,
      if_neg (by omega)]
  · rw [List.getElem?_append_right (by omega), hfront]
    rcases lt_or_ge position stop with hinside | hbehind
    · rw [List.getElem?_append_left (by rw [List.length_replicate]; omega),
        List.getElem?_replicate_of_lt (by omega), if_pos ⟨hafter, hinside⟩]
    · rw [List.getElem?_append_right (by rw [List.length_replicate]; omega),
        List.length_replicate, List.getElem?_drop, if_neg (by omega)]
      congr 1
      omega

theorem fillRange_map {α : Type} {start stop : ℕ} (hstart : start ≤ stop)
    (hstop : stop ≤ length) (element : ℕ → α) (value : α) :
    fillRange ((List.range length).map element) start stop value =
      (List.range length).map fun position =>
        if start ≤ position ∧ position < stop then value else element position := by
  apply List.ext_getElem?
  intro position
  rw [getElem?_fillRange hstart (by rwa [List.length_map, List.length_range]), List.getElem?_map,
    List.getElem?_map]
  by_cases hposition : position < length
  · rw [List.getElem?_range hposition, Option.map_some, Option.map_some, ← apply_ite some]
  · rw [List.getElem?_eq_none (by rw [List.length_range]; omega), Option.map_none, Option.map_none,
      if_neg (by omega)]

theorem byteAt_append {position : ℕ} (hapart : ∀ other ∈ done, other.Apart segment) :
    byteAt (done ++ [segment]) position =
      if segment.Contains position then segment.value else byteAt done position := by
  unfold byteAt
  rw [List.find?_append, List.find?_singleton]
  cases hfind : done.find? (·.Contains position) with
  | some other =>
    have hcontains : other.Contains position := by simpa using List.find?_some hfind
    rw [if_neg (hapart other (List.mem_of_find?_eq_some hfind) position hcontains)]
    rfl
  | none =>
    rw [Option.none_or]
    by_cases hcontains : segment.Contains position
    · rw [if_pos (decide_eq_true hcontains), if_pos hcontains]
      rfl
    · rw [if_neg (by simpa using hcontains), if_neg hcontains]

theorem assigned_append {position : ℕ} : Assigned (done ++ [segment]) position ↔
    segment.Contains position ∨ Assigned done position := by
  unfold Assigned
  simp only [List.mem_append, List.mem_singleton, or_and_right, exists_or, exists_eq_left]
  exact or_comm

/-- One more range, behind those that do not meet it. -/
theorem expansion_append (hapart : ∀ other ∈ done, other.Apart segment)
    (hwithin : segment.Within length) :
    (fillRange (expansion length done).1 segment.start segment.stop segment.value,
      fillRange (expansion length done).2 segment.start segment.stop true) =
      expansion length (done ++ [segment]) := by
  unfold expansion
  rw [fillRange_map hwithin.1.le hwithin.2, fillRange_map hwithin.1.le hwithin.2, Prod.mk.injEq]
  refine ⟨List.map_congr_left fun position _ => (byteAt_append hapart).symm,
    List.map_congr_left fun position _ => ?_⟩
  rw [Bool.eq_iff_iff, decide_eq_true_iff, assigned_append]
  by_cases hcontains : segment.Contains position
  · exact iff_of_true (if_pos hcontains) (.inl hcontains)
  · rw [show (if segment.start ≤ position ∧ position < segment.stop then true
      else decide (Assigned done position)) = decide (Assigned done position) from if_neg hcontains,
      decide_eq_true_iff]
    exact (or_iff_right hcontains).symm

theorem extract_range {start stop : ℕ} (hstop : stop ≤ length) :
    (List.range length).extract start stop = List.range' start (stop - start) := by
  have hsplit : List.range' start (length - start) = List.range' start (stop - start) ++
      List.range' (start + (stop - start)) (length - start - (stop - start)) := by
    rw [List.range'_append_1]
    congr 1
    omega
  rw [List.extract_eq_take_drop, List.range_eq_range', List.drop_range', Nat.zero_add, Nat.mul_one,
    hsplit, List.take_left' List.length_range']

/-- Something in a range has been assigned when an earlier range meets it. -/
theorem any_assigned (hwithin : segment.Within length) :
    ((expansion length done).2.extract segment.start segment.stop).any id = true ↔
      ¬∀ other ∈ done, other.Apart segment := by
  have hextract : (expansion length done).2.extract segment.start segment.stop =
      (List.range' segment.start (segment.stop - segment.start)).map
        fun position => decide (Assigned done position) := by
    unfold expansion
    rw [← extract_range hwithin.2, List.extract_eq_take_drop, List.extract_eq_take_drop,
      List.map_take, List.map_drop]
  rw [hextract, List.any_map, List.any_eq_true]
  constructor
  · rintro ⟨position, hposition, hassigned⟩ hapart
    obtain ⟨other, hother, hcontains⟩ := of_decide_eq_true hassigned
    rw [List.mem_range'_1] at hposition
    exact hapart other hother position hcontains ⟨hposition.1, by omega⟩
  · intro hmeets
    unfold InputSegment.Apart at hmeets
    push Not at hmeets
    obtain ⟨other, hother, position, hcontains, hinside⟩ := hmeets
    have hafter := hinside.1
    have hbefore := hinside.2
    refine ⟨position, List.mem_range'_1.mpr ⟨hafter, by omega⟩, ?_⟩
    exact decide_eq_true (⟨other, hother, hcontains⟩ : Assigned done position)

/-- A range is assigned behind others exactly when it fits with them. -/
theorem assignSegment_fits {index : ℕ} (hfits : Fits length (done ++ [segment])) :
    assignSegment (expansion length done) (segment, index) =
      .ok (expansion length (done ++ [segment])) := by
  obtain ⟨-, hwithin, hapart⟩ := fits_append_singleton.mp hfits
  have hassigned : (expansion length done).2.length = length := by simp [expansion]
  have hbytes : (expansion length done).1.length = length := by simp [expansion]
  obtain ⟨hstart, hstop⟩ := hwithin
  unfold assignSegment
  simp only [↓Except.check_eq_ok, rejectIf_eq_ok, hassigned, hbytes]
  refine ⟨by omega, ?_, by omega, congrArg Except.ok (expansion_append hapart ⟨hstart, hstop⟩)⟩
  rw [not_or, any_assigned ⟨hstart, hstop⟩, not_not]
  exact ⟨by omega, hapart⟩

theorem assignSegment_rejects {index : ℕ} (hdone : Fits length done)
    (hfits : ¬Fits length (done ++ [segment])) :
    assignSegment (expansion length done) (segment, index) = .error (.inputSegment index) := by
  have hassigned : (expansion length done).2.length = length := by simp [expansion]
  by_cases hrange : segment.stop < segment.start ∨ length < segment.stop
  · unfold assignSegment
    dsimp only
    rw [rejectIf, if_pos (by rwa [hassigned])]
    rfl
  · rw [not_or, not_lt, not_lt] at hrange
    have hreject : segment.stop ≤ segment.start ∨
        ((expansion length done).2.extract segment.start segment.stop).any id = true := by
      rw [or_iff_not_imp_left, not_le]
      intro hstart
      rw [any_assigned ⟨hstart, hrange.2⟩]
      exact fun hapart => hfits (fits_append_singleton.mpr ⟨hdone, ⟨hstart, hrange.2⟩, hapart⟩)
    unfold assignSegment
    dsimp only
    rw [rejectIf, if_neg (by rw [hassigned]; omega)]
    show (rejectIf _ _ >>= fun _ => _) = _
    rw [rejectIf, if_pos hreject]
    rfl

/-- The loop assigns all ranges when they fit. -/
theorem assignAll_fits (hfits : Fits length (done ++ segments)) :
    (segments.zipIdx done.length).foldlM assignSegment (expansion length done) =
      .ok (expansion length (done ++ segments)) := by
  induction segments generalizing done with
  | nil =>
    rw [List.append_nil]
    rfl
  | cons segment segments ih =>
    rw [List.append_cons] at hfits ⊢
    rw [List.zipIdx_cons, List.foldlM_cons, assignSegment_fits hfits.of_append]
    have hlength : done.length + 1 = (done ++ [segment]).length := by rw [List.length_append]; rfl
    rw [hlength]
    exact ih hfits

/-- Otherwise it stops at the first one that does not fit with those before it. -/
theorem assignAll_rejects (hdone : Fits length done) (hfits : ¬Fits length (done ++ segments)) :
    ∃ before segment after, segments = before ++ segment :: after ∧ Fits length (done ++ before) ∧
      ¬Fits length (done ++ before ++ [segment]) ∧
      (segments.zipIdx done.length).foldlM assignSegment (expansion length done) =
        .error (.inputSegment (done.length + before.length)) := by
  induction segments generalizing done with
  | nil =>
    rw [List.append_nil] at hfits
    exact absurd hdone hfits
  | cons segment segments ih =>
    have hlength : done.length + 1 = (done ++ [segment]).length := by rw [List.length_append]; rfl
    rw [List.zipIdx_cons, List.foldlM_cons]
    by_cases hsegment : Fits length (done ++ [segment])
    · rw [List.append_cons] at hfits
      obtain ⟨before, other, after, rfl, hbefore, hother, hrejects⟩ := ih hsegment hfits
      rw [← List.append_cons] at hbefore
      rw [← List.append_cons] at hother
      refine ⟨segment :: before, other, after, rfl, hbefore, hother, ?_⟩
      rw [assignSegment_fits hsegment, hlength]
      show List.foldlM _ _ _ = _
      rw [hrejects, ← hlength, List.length_cons]
      congr 2
      omega
    · refine ⟨[], segment, segments, rfl, by rwa [List.append_nil], by rwa [List.append_nil], ?_⟩
      rw [assignSegment_rejects hdone hsegment]
      rfl

theorem byteAt_eq {position : ℕ} (hfits : Fits length segments) (hmem : segment ∈ segments)
    (hcontains : segment.Contains position) : byteAt segments position = segment.value := by
  obtain ⟨found, hfound⟩ : ∃ found, segments.find? (·.Contains position) = some found := by
    rw [← Option.isSome_iff_exists, List.find?_isSome]
    exact ⟨segment, hmem, decide_eq_true hcontains⟩
  have hfoundContains : found.Contains position := by simpa using List.find?_some hfound
  have hsame : found = segment := by
    by_contra hne
    exact hfits.apart.forall (List.mem_of_find?_eq_some hfound) hmem hne position hfoundContains
      hcontains
  unfold byteAt
  rw [hfound, hsame]
  rfl

theorem byteAt_eq_zero {position : ℕ} (hnone : ¬Assigned segments position) :
    byteAt segments position = 0 := by
  unfold byteAt
  rw [List.find?_eq_none.mpr]
  · rfl
  · intro segment hmem hcontains
    exact hnone ⟨segment, hmem, of_decide_eq_true hcontains⟩

/-- The order of ranges does not matter for the bytes. -/
theorem byteAt_perm {others : List InputSegment} (hfits : Fits length segments)
    (hperm : segments.Perm others) (position : ℕ) :
    byteAt others position = byteAt segments position := by
  by_cases hassigned : Assigned segments position
  · obtain ⟨segment, hmem, hcontains⟩ := hassigned
    rw [byteAt_eq hfits hmem hcontains,
      byteAt_eq (hfits.perm hperm) (hperm.mem_iff.mp hmem) hcontains]
  · rw [byteAt_eq_zero hassigned, byteAt_eq_zero]
    rintro ⟨segment, hmem, hcontains⟩
    exact hassigned ⟨segment, hperm.mem_iff.mpr hmem, hcontains⟩

theorem expansion_nil :
    expansion length [] = (List.replicate length 0, List.replicate length false) := by
  have hbytes : byteAt [] = fun _ => 0 := rfl
  simp [expansion, hbytes, Assigned]

theorem expandSchedule_eq {schedule : InputSchedule}
    (hschema : schedule.schema = inputScheduleSchema)
    (hlength : schedule.length ≤ maxInputBytes) :
    expandSchedule schedule = Prod.fst <$> (schedule.segments.zipIdx 0).foldlM assignSegment
      (expansion schedule.length []) := by
  have hschema' : rejectIf (schedule.schema ≠ inputScheduleSchema)
      (ScheduleError.inputSchema schedule.schema) = .ok () :=
    rejectIf_eq_ok.mpr (not_not.mpr hschema)
  have hlength' : rejectIf (maxInputBytes < schedule.length)
      (ScheduleError.inputTooLarge schedule.length maxInputBytes) = .ok () :=
    rejectIf_eq_ok.mpr (not_lt.mpr hlength)
  unfold expandSchedule
  rw [hschema', hlength', ← expansion_nil]
  rfl

theorem expandSchedule_eq_ok {schedule : InputSchedule} {bytes : List Byte} :
    expandSchedule schedule = .ok bytes ↔ schedule.schema = inputScheduleSchema ∧
      schedule.length ≤ maxInputBytes ∧ Fits schedule.length schedule.segments ∧
      bytes = (List.range schedule.length).map (byteAt schedule.segments) := by
  have hchecked (h : expandSchedule schedule = .ok bytes) :
      schedule.schema = inputScheduleSchema ∧ schedule.length ≤ maxInputBytes := by
    obtain ⟨hschema, h⟩ := Except.check_eq_ok.mp h
    obtain ⟨hlength, -⟩ := Except.check_eq_ok.mp h
    exact ⟨not_not.mp (rejectIf_eq_ok.mp hschema), not_lt.mp (rejectIf_eq_ok.mp hlength)⟩
  constructor
  · intro h
    obtain ⟨hschema, hlength⟩ := hchecked h
    rw [expandSchedule_eq hschema hlength] at h
    refine ⟨hschema, hlength, ?_⟩
    by_cases hfits : Fits schedule.length schedule.segments
    · have hall : (schedule.segments.zipIdx 0).foldlM assignSegment
          (expansion schedule.length []) = .ok (expansion schedule.length schedule.segments) :=
        assignAll_fits hfits
      rw [hall] at h
      exact ⟨hfits, (Except.ok.inj h).symm⟩
    · obtain ⟨before, _, _, -, -, -, hrejects⟩ := assignAll_rejects .nil hfits
      rw [show (schedule.segments.zipIdx 0).foldlM assignSegment (expansion schedule.length []) = _
        from hrejects] at h
      cases h
  · rintro ⟨hschema, hlength, hfits, rfl⟩
    have hall : (schedule.segments.zipIdx 0).foldlM assignSegment
        (expansion schedule.length []) = .ok (expansion schedule.length schedule.segments) :=
      assignAll_fits hfits
    rw [expandSchedule_eq hschema hlength, hall]
    rfl

/-- An expanded schedule is a private input of the command. -/
theorem length_expandSchedule {schedule : InputSchedule} {bytes : List Byte}
    (h : expandSchedule schedule = .ok bytes) : bytes.length ≤ maxInputBytes := by
  obtain ⟨-, hlength, -, rfl⟩ := expandSchedule_eq_ok.mp h
  rwa [List.length_map, List.length_range]

/-- There is only one first range that does not fit. -/
theorem first_misfit {before after : List InputSegment} {index : ℕ} {other : InputSegment}
    (hbefore : Fits length before) (hmisfit : ¬Fits length (before ++ [segment]))
    (hindex : (before ++ segment :: after)[index]? = some other)
    (htake : Fits length ((before ++ segment :: after).take index))
    (hother : ¬Fits length ((before ++ segment :: after).take index ++ [other])) :
    index = before.length := by
  rcases lt_trichotomy index before.length with hlt | heq | hgt
  · refine absurd ?_ hother
    rw [List.getElem?_append_left hlt] at hindex
    have hfront : (before ++ segment :: after).take index ++ [other] = before.take (index + 1) := by
      rw [List.take_append_of_le_length hlt.le, List.take_add_one, hindex]
      rfl
    rw [hfront]
    rw [← List.take_append_drop (index + 1) before] at hbefore
    exact hbefore.of_append
  · exact heq
  · refine absurd ?_ hmisfit
    have hfront : (before ++ segment :: after).take index =
        before ++ [segment] ++ after.take (index - (before.length + 1)) := by
      rw [List.append_cons, List.take_append, List.take_of_length_le]
      · rw [List.length_append]
        rfl
      · rw [List.length_append]
        exact hgt
    rw [hfront] at htake
    exact htake.of_append

theorem expandSchedule_eq_error {schedule : InputSchedule} {index : ℕ} :
    expandSchedule schedule = .error (.inputSegment index) ↔
      schedule.schema = inputScheduleSchema ∧ schedule.length ≤ maxInputBytes ∧
      ∃ segment, schedule.segments[index]? = some segment ∧
        Fits schedule.length (schedule.segments.take index) ∧
        ¬Fits schedule.length (schedule.segments.take index ++ [segment]) := by
  have hmisfits (hfits : ¬Fits schedule.length schedule.segments) :
      ∃ before segment after, schedule.segments = before ++ segment :: after ∧
        Fits schedule.length before ∧ ¬Fits schedule.length (before ++ [segment]) ∧
        (schedule.segments.zipIdx 0).foldlM assignSegment (expansion schedule.length []) =
          .error (.inputSegment before.length) := by
    obtain ⟨before, segment, after, hsegments, hbefore, hsegment, hrejects⟩ :=
      assignAll_rejects .nil hfits
    rw [List.length_nil, Nat.zero_add] at hrejects
    exact ⟨before, segment, after, hsegments, hbefore, hsegment, hrejects⟩
  constructor
  · intro h
    by_cases hschema : schedule.schema = inputScheduleSchema
    · by_cases hlength : schedule.length ≤ maxInputBytes
      · by_cases hfits : Fits schedule.length schedule.segments
        · rw [expandSchedule_eq_ok.mpr ⟨hschema, hlength, hfits, rfl⟩] at h
          cases h
        · obtain ⟨before, segment, after, hsegments, hbefore, hsegment, hrejects⟩ := hmisfits hfits
          rw [expandSchedule_eq hschema hlength, hrejects] at h
          cases h
          refine ⟨hschema, hlength, segment, ?_⟩
          rw [hsegments, List.take_left', List.getElem?_append_right (le_refl _), Nat.sub_self]
          · exact ⟨rfl, hbefore, hsegment⟩
          · rfl
      · unfold expandSchedule at h
        rw [show rejectIf (schedule.schema ≠ inputScheduleSchema)
          (ScheduleError.inputSchema schedule.schema) = .ok () from
            rejectIf_eq_ok.mpr (not_not.mpr hschema), rejectIf, if_pos (not_le.mp hlength)] at h
        cases h
    · unfold expandSchedule at h
      rw [rejectIf, if_pos hschema] at h
      cases h
  · rintro ⟨hschema, hlength, segment, hindex, htake, hmisfit⟩
    have hfits : ¬Fits schedule.length schedule.segments := by
      intro hfits
      rw [← List.take_append_drop (index + 1) schedule.segments] at hfits
      have hfront := hfits.of_append
      rw [List.take_add_one, hindex] at hfront
      exact hmisfit hfront
    obtain ⟨before, other, after, hsegments, hbefore, hother, hrejects⟩ := hmisfits hfits
    rw [hsegments] at hindex htake hmisfit
    obtain rfl := first_misfit hbefore hother hindex htake hmisfit
    rw [expandSchedule_eq hschema hlength, hrejects]
    rfl

/-- A schedule expands exactly when its ranges have a byte each, lie within the input and do not
meet, to the bytes of its ranges and zeros; whatever their order. Otherwise the first range that
does not fit with those before it is named. -/
theorem schedule_expands (schedule : InputSchedule) :
    (∀ bytes, expandSchedule schedule = .ok bytes ↔ schedule.schema = inputScheduleSchema ∧
      schedule.length ≤ maxInputBytes ∧ Fits schedule.length schedule.segments ∧
      bytes = (List.range schedule.length).map (byteAt schedule.segments)) ∧
    (∀ index, expandSchedule schedule = .error (.inputSegment index) ↔
      schedule.schema = inputScheduleSchema ∧ schedule.length ≤ maxInputBytes ∧
      ∃ segment, schedule.segments[index]? = some segment ∧
        Fits schedule.length (schedule.segments.take index) ∧
        ¬Fits schedule.length (schedule.segments.take index ++ [segment])) ∧
    ∀ segments, segments.Perm schedule.segments → ∀ bytes,
      expandSchedule { schedule with segments } = .ok bytes ↔
        expandSchedule schedule = .ok bytes := by
  refine ⟨fun bytes => expandSchedule_eq_ok, fun index => expandSchedule_eq_error,
    fun segments hperm bytes => ?_⟩
  simp only [expandSchedule_eq_ok]
  constructor
  · rintro ⟨hschema, hlength, hfits, rfl⟩
    exact ⟨hschema, hlength, hfits.perm hperm, List.map_congr_left fun position _ =>
      (byteAt_perm hfits hperm position).symm⟩
  · rintro ⟨hschema, hlength, hfits, rfl⟩
    exact ⟨hschema, hlength, hfits.perm hperm.symm, List.map_congr_left fun position _ =>
      (byteAt_perm hfits hperm.symm position).symm⟩

end Zksm83.NativeProver
