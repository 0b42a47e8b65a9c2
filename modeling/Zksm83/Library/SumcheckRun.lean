import Zksm83.Library.Codec
import Zksm83.Library.Sumcheck

/-!
# Sumcheck over a channel

The messages of a sumcheck are lists of values at zero, one, two and so on, and the challenges come
from a channel that has absorbed the messages before them. The honest run over a channel is what
every honest prover has to produce, whatever its tables are stored as (`proveLoop_eq`), and what the
verifier accepts (`replay_honestRun`). Whatever the verifier accepts are rounds of the protocol
(`replay_accepts`).
-/

open Finset Polynomial
open Multilinear (extension extension_cons extension_nil)

namespace Sumcheck

variable {F State ε Message Tables Tables' : Type} {V : Type*} [Field F] [AddCommGroup V] [Module F V] {degree : ℕ}

/-- A channel absorbs the message of a round and then gives a challenge. -/
structure Channel (F State : Type) where
  absorb : ℕ → List F → State → State
  challenge : State → F × State

/-- The challenge after a message. -/
def Channel.draw (channel : Channel F State) (index : ℕ) (message : List F) (state : State) :
    F × State :=
  channel.challenge (channel.absorb index message state)

/-- The values of the honest polynomial at the nodes. -/
def Summand.message (summand : Summand F V degree) (count : ℕ) (table : ℕ → V) : List F :=
  (List.range (degree + 1)).map (fun node : ℕ =>
    summand.total count (Multilinear.fold (node : F) table))

theorem interpolant_message (summand : Summand F V degree) (hnodes : DistinctNodes F (degree + 1))
    (count : ℕ) (table : ℕ → V) :
    interpolant (summand.message count table) = summand.honest count table := by
  have hlength : (summand.message count table).length = degree + 1 := by
    simp [Summand.message]
  refine interpolant_eq hnodes hlength (summand.natDegree_honest_le count table) ?_
  intro node hnode
  rw [summand.eval_honest, Summand.message, List.getD_eq_getElem?_getD, List.getElem?_map,
    List.getElem?_range hnode]
  rfl

/-- The messages, the challenges and the channel after the honest run. -/
def honestRun (channel : Channel F State) (summand : Summand F V degree) :
    ℕ → ℕ → (ℕ → V) → State → List (List F) × List F × State
  | 0, _, _, state => ([], [], state)
  | count + 1, index, table, state =>
    let message := summand.message count table
    let drawn := channel.draw index message state
    let rest := honestRun channel summand count (index + 1) (Multilinear.fold drawn.1 table) drawn.2
    (message :: rest.1, drawn.1 :: rest.2.1, rest.2.2)

section HonestRun

variable (channel : Channel F State) (summand : Summand F V degree)

theorem length_honestRun (count index : ℕ) (table : ℕ → V) (state : State) :
    (honestRun channel summand count index table state).1.length = count ∧
      (honestRun channel summand count index table state).2.1.length = count := by
  induction count generalizing index table state with
  | zero => exact ⟨rfl, rfl⟩
  | succ count ih =>
    obtain ⟨hrounds, hpoint⟩ := ih (index + 1) _ _
    exact ⟨congrArg Nat.succ hrounds, congrArg Nat.succ hpoint⟩

theorem length_of_mem_honestRun {count index : ℕ} {table : ℕ → V} {state : State}
    {message : List F} (hmem : message ∈ (honestRun channel summand count index table state).1) :
    message.length = degree + 1 := by
  induction count generalizing index table state with
  | zero => exact absurd hmem List.not_mem_nil
  | succ count ih =>
    obtain rfl | hmem := List.mem_cons.mp hmem
    · simp [Summand.message]
    · exact ih hmem

/-- The run only reads the table on the hypercube. -/
theorem honestRun_congr {count : ℕ} (index : ℕ) {table table' : ℕ → V} (state : State)
    (hagree : ∀ index < 2 ^ count, table index = table' index) :
    honestRun channel summand count index table state =
      honestRun channel summand count index table' state := by
  induction count generalizing index table table' state with
  | zero => rfl
  | succ count ih =>
    rw [pow_succ, mul_comm] at hagree
    have hmessage : summand.message count table = summand.message count table' := by
      refine List.map_congr_left fun node _ => ?_
      unfold Summand.total Multilinear.cubeSum
      refine sum_congr rfl fun row hrow => ?_
      exact congrArg summand.value (Multilinear.fold_congr hagree row (mem_range.mp hrow))
    unfold honestRun
    simp only [hmessage]
    rw [ih (index + 1) _ (Multilinear.fold_congr hagree)]

end HonestRun

/-! ## The verifier -/

/-- The loop of a verifier: check the message against the claim, absorb it, draw a challenge, and
evaluate the message there. It returns the last claim, the challenges and the channel. -/
def replay (channel : Channel F State) (check : List F → F → Except ε Unit)
    (evaluate : List F → F → Except ε F) :
    ℕ → F → List (List F) → State → Except ε (F × List F × State)
  | _, claim, [], state => .ok (claim, [], state)
  | index, claim, message :: rounds, state => do
    check message claim
    let (challenge, state) := channel.draw index message state
    let claim ← evaluate message challenge
    let (claim, point, state) ← replay channel check evaluate (index + 1) claim rounds state
    return (claim, challenge :: point, state)

section Replay

variable (channel : Channel F State) {check : List F → F → Except ε Unit}
  {evaluate : List F → F → Except ε F}

omit [Field F] in
theorem replay_cons {index : ℕ} {claim : F} {message : List F} {rounds : List (List F)}
    {state state' : State} {final : F} {point : List F} :
    replay channel check evaluate index claim (message :: rounds) state =
        .ok (final, point, state') ↔
      ∃ next rest, check message claim = .ok () ∧
        evaluate message (channel.draw index message state).1 = .ok next ∧
        replay channel check evaluate (index + 1) next rounds (channel.draw index message state).2 =
          .ok (final, rest, state') ∧
        point = (channel.draw index message state).1 :: rest := by
  constructor
  · intro h
    obtain ⟨_, hcheck, h⟩ := Except.bind_eq_ok.mp h
    obtain ⟨next, hnext, h⟩ := Except.bind_eq_ok.mp h
    obtain ⟨⟨final', rest, state''⟩, hrest, h⟩ := Except.bind_eq_ok.mp h
    cases h
    exact ⟨next, rest, hcheck, hnext, hrest, rfl⟩
  · rintro ⟨next, rest, hcheck, hnext, hrest, rfl⟩
    exact Except.bind_eq_ok.mpr ⟨(), hcheck, Except.bind_eq_ok.mpr ⟨next, hnext,
      Except.bind_eq_ok.mpr ⟨_, hrest, rfl⟩⟩⟩

omit [Field F] in
/-- Every message of an accepted run passed the check of some claim. -/
theorem checked_of_replay {index : ℕ} {claim final : F} {rounds : List (List F)}
    {state state' : State} {point : List F}
    (hreplay : replay channel check evaluate index claim rounds state =
      .ok (final, point, state')) :
    ∀ message ∈ rounds, ∃ claim, check message claim = .ok () := by
  induction rounds generalizing index claim state point with
  | nil => nofun
  | cons first rounds ih =>
    obtain ⟨next, rest, hcheck, -, hrest, -⟩ := (replay_cons channel).mp hreplay
    intro message hmessage
    obtain rfl | hmessage := List.mem_cons.mp hmessage
    · exact ⟨claim, hcheck⟩
    · exact ih hrest message hmessage

/-- The verifier accepts messages of one length at least two: it checks the sum of the first two
values, and evaluates by interpolation. -/
structure Verifies (degree : ℕ) (check : List F → F → Except ε Unit)
    (evaluate : List F → F → Except ε F) : Prop where
  check_eq_ok {message : List F} {claim : F} (hlength : message.length = degree + 2) :
    check message claim = .ok () ↔ message.getD 0 0 + message.getD 1 0 = claim
  evaluate_eq_ok {message : List F} {point value : F} (hlength : message.length = degree + 2) :
    evaluate message point = .ok value ↔
      DistinctNodes F (degree + 2) ∧ value = (interpolant message).eval point

/-- The rounds of the protocol that messages and challenges stand for. -/
noncomputable def roundsOf (rounds : List (List F)) (point : List F) : List (F[X] × F) :=
  (rounds.map interpolant).zip point

theorem map_snd_roundsOf {rounds : List (List F)} {point : List F}
    (hlength : point.length = rounds.length) :
    (roundsOf rounds point).map Prod.snd = point ∧ (roundsOf rounds point).length = rounds.length := by
  have hle : point.length ≤ (rounds.map interpolant).length := by
    rw [List.length_map, hlength]
  refine ⟨List.map_snd_zip hle, ?_⟩
  rw [roundsOf, List.length_zip, List.length_map, hlength, min_self]

/-- Accepted messages that end at the true value started from the true sum, unless some challenge is
a root of a difference of two polynomials. -/
theorem sound_roundsOf (summand : Summand F V degree) (table : ℕ → V) {claim final : F}
    {rounds : List (List F)} {point : List F} (hlength : point.length = rounds.length)
    (haccepts : Accepts claim (roundsOf rounds point) final)
    (hdegree : ∀ round ∈ roundsOf rounds point, round.1.natDegree ≤ degree)
    (hfinal : final = summand.value (extension point table)) :
    claim = summand.total rounds.length table ∨
      Escapes summand table (roundsOf rounds point) := by
  obtain ⟨hpoint, hrounds⟩ := map_snd_roundsOf hlength
  rw [← hrounds]
  exact sound summand table haccepts hdegree (by rw [hpoint, hfinal])

theorem eval_interpolant_ends {message : List F} {degree : ℕ}
    (hnodes : DistinctNodes F (degree + 2)) (hlength : message.length = degree + 2) :
    (interpolant message).eval 0 + (interpolant message).eval 1 =
      message.getD 0 0 + message.getD 1 0 := by
  rw [← hlength] at hnodes
  have hzero := @eval_interpolant F _ _ hnodes 0 (by omega)
  have hone := @eval_interpolant F _ _ hnodes 1 (by omega)
  rw [Nat.cast_zero] at hzero
  rw [Nat.cast_one] at hone
  rw [hzero, hone]

/-- What the verifier accepts are accepted rounds of the protocol, of bounded degree. -/
theorem replay_accepts (hverifies : Verifies degree check evaluate) {index : ℕ} {claim final : F}
    {rounds : List (List F)} {state state' : State} {point : List F}
    (hlength : ∀ message ∈ rounds, message.length = degree + 2)
    (hreplay : replay channel check evaluate index claim rounds state =
      .ok (final, point, state')) :
    point.length = rounds.length ∧ Accepts claim (roundsOf rounds point) final ∧
      ∀ round ∈ roundsOf rounds point, round.1.natDegree ≤ degree + 1 := by
  induction rounds generalizing index claim state point with
  | nil =>
    cases hreplay
    exact ⟨rfl, rfl, nofun⟩
  | cons message rounds ih =>
    obtain ⟨next, rest, hcheck, hnext, hrest, rfl⟩ := (replay_cons channel).mp hreplay
    have hmessage := hlength message List.mem_cons_self
    obtain ⟨hnodes, rfl⟩ := (hverifies.evaluate_eq_ok hmessage).mp hnext
    obtain ⟨hpoint, haccepts, hdegree⟩ :=
      ih (fun message hmem => hlength message (List.mem_cons_of_mem _ hmem)) hrest
    refine ⟨congrArg Nat.succ hpoint, ⟨?_, haccepts⟩, ?_⟩
    · rw [eval_interpolant_ends hnodes hmessage]
      exact (hverifies.check_eq_ok hmessage).mp hcheck
    · intro round hround
      obtain rfl | hround := List.mem_cons.mp hround
      · exact natDegree_interpolant_le (hmessage.symm ▸ hnodes) hmessage
      · exact hdegree round hround

/-- The verifier accepts the honest run. -/
theorem replay_honestRun (hverifies : Verifies degree check evaluate)
    (summand : Summand F V (degree + 1)) (hnodes : DistinctNodes F (degree + 2))
    (count index : ℕ) (table : ℕ → V) (state : State) :
    replay channel check evaluate index (summand.total count table)
        (honestRun channel summand count index table state).1 state =
      .ok (summand.value (extension (honestRun channel summand count index table state).2.1 table),
        (honestRun channel summand count index table state).2) := by
  induction count generalizing index table state with
  | zero =>
    show Except.ok (summand.total 0 table, [], state) = _
    rw [summand.total_zero]
    simp [honestRun]
  | succ count ih =>
    have hlength : (summand.message count table).length = degree + 2 := by
      simp [Summand.message]
    have hinterpolant := interpolant_message summand hnodes count table
    refine (replay_cons channel).mpr ⟨_, _, ?_, (hverifies.evaluate_eq_ok hlength).mpr
      ⟨hnodes, rfl⟩, ?_, rfl⟩
    · rw [hverifies.check_eq_ok hlength, ← eval_interpolant_ends hnodes hlength, hinterpolant,
        summand.honest_zero_add_one]
    · rw [hinterpolant, summand.eval_honest, ih]
      show Except.ok (_, _) = _
      rw [honestRun, extension_cons]

end Replay

/-! ## Provers -/

/-- The loop of a prover, for as long as its tables have more than one row: compute the message,
absorb its values, draw a challenge and fold the tables. Each round halves the tables, so that their
length bounds the number of rounds. -/
def proveLoop (channel : Channel F State) (values : Message → List F) (more : Tables → Bool)
    (round : Tables → Except ε Message) (fold : Message → F → Tables → Except ε Tables) :
    ℕ → ℕ → Tables → State → Except ε (List Message × List F × Tables × State)
  | 0, _, tables, state => .ok ([], [], tables, state)
  | fuel + 1, index, tables, state =>
    if more tables then do
      let message ← round tables
      let (challenge, state) := channel.draw index (values message) state
      let tables ← fold message challenge tables
      let (rounds, point, tables, state) ←
        proveLoop channel values more round fold fuel (index + 1) tables state
      return (message :: rounds, challenge :: point, tables, state)
    else .ok ([], [], tables, state)

/-- A round computes the honest message and folds the tables, where `represents` says which table of
rows over how many coordinates the tables stand for. -/
def RoundRepresents (summand : Summand F V degree) (values : Message → List F)
    (represents : ℕ → Tables → (ℕ → V) → Prop) (represents' : ℕ → Tables' → (ℕ → V) → Prop)
    (round : Tables → Except ε Message) (fold : Message → F → Tables → Except ε Tables') : Prop :=
  ∀ count tables table, represents (count + 1) tables table →
    ∃ message, round tables = .ok message ∧ values message = summand.message count table ∧
      ∀ x, ∃ folded, fold message x tables = .ok folded ∧
        represents' count folded (Multilinear.fold x table)

/-- A prover whose tables represent a table of rows makes the honest run, and ends with tables that
represent the extension. -/
theorem proveLoop_eq (channel : Channel F State) {summand : Summand F V degree}
    {values : Message → List F} {represents : ℕ → Tables → (ℕ → V) → Prop} {more : Tables → Bool}
    {round : Tables → Except ε Message} {fold : Message → F → Tables → Except ε Tables}
    (hmore : ∀ count tables table, represents count tables table → more tables = decide (0 < count))
    (hround : RoundRepresents summand values represents represents round fold) {count fuel : ℕ}
    (hfuel : count ≤ fuel) (index : ℕ) {tables : Tables} {table : ℕ → V}
    (htables : represents count tables table) (state : State) :
    ∃ rounds folded, proveLoop channel values more round fold fuel index tables state =
        .ok (rounds, (honestRun channel summand count index table state).2.1, folded,
          (honestRun channel summand count index table state).2.2) ∧
      rounds.map values = (honestRun channel summand count index table state).1 ∧
      represents 0 folded
        (Multilinear.foldAll (honestRun channel summand count index table state).2.1 table) := by
  induction fuel generalizing count index tables table state with
  | zero =>
    obtain rfl := Nat.le_zero.mp hfuel
    exact ⟨[], tables, rfl, rfl, htables⟩
  | succ fuel ih =>
    cases count with
    | zero =>
      refine ⟨[], tables, ?_, rfl, htables⟩
      rw [proveLoop, hmore 0 tables table htables]
      rfl
    | succ count =>
      obtain ⟨message, hmessage, hvalues, hfolds⟩ := hround count tables table htables
      obtain ⟨folded, hfold, hfolded⟩ :=
        hfolds (channel.draw index (summand.message count table) state).1
      obtain ⟨rounds, final, hfinal, hrounds, hrest⟩ := ih (Nat.le_of_succ_le_succ hfuel)
        (index + 1) hfolded (channel.draw index (summand.message count table) state).2
      refine ⟨message :: rounds, final, ?_, ?_, hrest⟩
      · rw [proveLoop, if_pos ((hmore _ tables table htables).trans (decide_eq_true (by omega)))]
        refine Except.bind_eq_ok.mpr ⟨message, hmessage, ?_⟩
        rw [hvalues]
        exact Except.bind_eq_ok.mpr ⟨_, hfold, Except.bind_eq_ok.mpr ⟨_, hfinal, rfl⟩⟩
      · rw [List.map_cons, hvalues, hrounds]
        rfl

/-- The loop of a prover whose first round reads tables of another form. -/
def proveFrom (channel : Channel F State) (values : Message → List F)
    (first : Tables → Except ε Message) (foldFirst : Message → F → Tables → Except ε Tables')
    (more : Tables' → Bool) (round : Tables' → Except ε Message)
    (fold : Message → F → Tables' → Except ε Tables') (fuel : Tables' → ℕ) (tables : Tables)
    (state : State) : Except ε (List Message × List F × Tables' × State) := do
  let message ← first tables
  let (challenge, state) := channel.draw 0 (values message) state
  let tables ← foldFirst message challenge tables
  let (rounds, point, tables, state) ←
    proveLoop channel values more round fold (fuel tables) 1 tables state
  return (message :: rounds, challenge :: point, tables, state)

/-- The prover makes the honest run when its first round represents, too. -/
theorem proveFrom_eq (channel : Channel F State) {summand : Summand F V degree}
    {values : Message → List F} {represents : ℕ → Tables → (ℕ → V) → Prop}
    {represents' : ℕ → Tables' → (ℕ → V) → Prop} {first : Tables → Except ε Message}
    {foldFirst : Message → F → Tables → Except ε Tables'} {more : Tables' → Bool}
    {round : Tables' → Except ε Message} {fold : Message → F → Tables' → Except ε Tables'}
    {fuel : Tables' → ℕ}
    (hmore : ∀ count tables table, represents' count tables table →
      more tables = decide (0 < count) ∧ count ≤ fuel tables)
    (hfirst : RoundRepresents summand values represents represents' first foldFirst)
    (hround : RoundRepresents summand values represents' represents' round fold) {count : ℕ}
    {tables : Tables} {table : ℕ → V} (htables : represents (count + 1) tables table)
    (state : State) :
    ∃ rounds folded,
      proveFrom channel values first foldFirst more round fold fuel tables state =
        .ok (rounds, (honestRun channel summand (count + 1) 0 table state).2.1, folded,
          (honestRun channel summand (count + 1) 0 table state).2.2) ∧
      rounds.map values = (honestRun channel summand (count + 1) 0 table state).1 ∧
      represents' 0 folded (Multilinear.foldAll
        (honestRun channel summand (count + 1) 0 table state).2.1 table) := by
  obtain ⟨message, hmessage, hvalues, hfolds⟩ := hfirst count tables table htables
  obtain ⟨folded, hfold, hfolded⟩ :=
    hfolds (channel.draw 0 (summand.message count table) state).1
  obtain ⟨rounds, final, hfinal, hrounds, hrest⟩ := proveLoop_eq channel
    (fun count tables table htables => (hmore count tables table htables).1) hround
    (hmore _ _ _ hfolded).2 1 hfolded (channel.draw 0 (summand.message count table) state).2
  refine ⟨message :: rounds, final, ?_, ?_, hrest⟩
  · refine Except.bind_eq_ok.mpr ⟨message, hmessage, ?_⟩
    rw [hvalues]
    exact Except.bind_eq_ok.mpr ⟨_, hfold, Except.bind_eq_ok.mpr ⟨_, hfinal, rfl⟩⟩
  · rw [List.map_cons, hvalues, hrounds]
    rfl

end Sumcheck
