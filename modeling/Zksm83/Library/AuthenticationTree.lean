import Mathlib.Data.Nat.Bitwise
import Mathlib.Data.Set.Basic
import Mathlib.Logic.Function.Basic
import Mathlib.Tactic.Linarith

/-!
# Authentication trees

A perfect binary tree of digests over an array of values. The leaves are digests of the values, and
the digest of a node is computed from its level and its two children. A path lists the siblings
from a leaf to the root; climbing from a leaf digest along a path gives the root that the path
authenticates. The tree is described by its digest function `subtree`, from which the three facts
about paths follow: the siblings of a position lead to the root, they lead to the root of the
updated array from the new leaf, and no other digest or path leads to the root as long as the pairs
that were hashed do not collide. Read `climb_siblings`, `climb_update` and `eq_of_climb_eq` first.
-/

namespace AuthenticationTree

variable {V R : Type*}

section Digests

variable (leaf : V → R) (node : ℕ → R → R → R)

/-- The digest of the node at a level and a position, over the values of the leaves. -/
def subtree (values : ℕ → V) : ℕ → ℕ → R
  | 0, position => leaf (values position)
  | level + 1, position =>
    node level (subtree values level (2 * position)) (subtree values level (2 * position + 1))

/-- The siblings of the ancestors of a node, for a number of levels. -/
def siblings (values : ℕ → V) : ℕ → ℕ → ℕ → List R
  | 0, _, _ => []
  | height + 1, level, position =>
    subtree leaf node values level (position ^^^ 1) ::
      siblings values height (level + 1) (position / 2)

/-- The pair of children in the order of the tree. -/
def ordered (position : ℕ) (current sibling : R) : R × R :=
  if position % 2 = 0 then (current, sibling) else (sibling, current)

/-- The digest at the end of a path. -/
def climb : ℕ → ℕ → R → List R → R
  | _, _, current, [] => current
  | level, position, current, sibling :: path =>
    climb (level + 1) (position / 2)
      (node level (ordered position current sibling).1 (ordered position current sibling).2) path

/-- The pairs that are hashed along a path, each with its level. -/
def climbed : ℕ → ℕ → R → List R → List (ℕ × R × R)
  | _, _, _, [] => []
  | level, position, current, sibling :: path =>
    (level, ordered position current sibling) ::
      climbed (level + 1) (position / 2)
        (node level (ordered position current sibling).1 (ordered position current sibling).2) path

/-- The pairs that are hashed in the tree of a height, each with its level. -/
def hashed (values : ℕ → V) (height : ℕ) : Set (ℕ × R × R) :=
  {pair | ∃ level position, level < height ∧ position < 2 ^ (height - 1 - level) ∧
    pair = (level, subtree leaf node values level (2 * position),
      subtree leaf node values level (2 * position + 1))}

/-- Different pairs of a set that are hashed at one level have different digests. -/
def CollisionFree (pairs : Set (ℕ × R × R)) : Prop :=
  ∀ level (first second : R × R), (level, first) ∈ pairs → (level, second) ∈ pairs →
    node level first.1 first.2 = node level second.1 second.2 → first = second

end Digests

variable {leaf : V → R} {node : ℕ → R → R → R}

/-- A node depends only on the leaves below it. -/
theorem subtree_congr {values values' : ℕ → V} (level position : ℕ)
    (hvalues : ∀ index, position * 2 ^ level ≤ index → index < (position + 1) * 2 ^ level →
      values index = values' index) :
    subtree leaf node values level position = subtree leaf node values' level position := by
  induction level generalizing position with
  | zero => rw [subtree, subtree, hvalues position (by simp) (by simp)]
  | succ level ih =>
    rw [Nat.pow_succ] at hvalues
    rw [subtree, subtree, ih (2 * position), ih (2 * position + 1)]
    · intro index hlow hhigh
      exact hvalues index (by nlinarith) (by nlinarith)
    · intro index hlow hhigh
      exact hvalues index (by nlinarith) (by nlinarith [Nat.two_pow_pos level])

/-- All nodes of a level are the same over a constant array. -/
theorem subtree_const (value : V) (level position : ℕ) :
    subtree leaf node (fun _ => value) level position =
      subtree leaf node (fun _ => value) level 0 := by
  induction level generalizing position with
  | zero => rfl
  | succ level ih =>
    rw [subtree, ih (2 * position), ih (2 * position + 1)]
    exact congrArg (node level _) (ih 1).symm

/-- The sibling of a left child is the next node, and that of a right child the one before. -/
theorem xor_one_eq (position : ℕ) :
    position ^^^ 1 = if position % 2 = 0 then position + 1 else position - 1 := by
  rcases Nat.mod_two_eq_zero_or_one position with heven | hodd
  · rw [if_pos heven, Nat.xor_one_of_even (Nat.even_iff.mpr heven)]
  · rw [if_neg (by omega), Nat.xor_one_of_odd (Nat.odd_iff.mpr hodd)]

/-- A node and its sibling in order are the children of the parent. -/
theorem ordered_siblings (values : ℕ → V) (level position : ℕ) :
    ordered position (subtree leaf node values level position)
        (subtree leaf node values level (position ^^^ 1)) =
      (subtree leaf node values level (2 * (position / 2)),
        subtree leaf node values level (2 * (position / 2) + 1)) := by
  rw [xor_one_eq]
  unfold ordered
  split <;> rename_i hparity
  · rw [show 2 * (position / 2) = position by omega]
  · rw [show 2 * (position / 2) + 1 = position by omega,
      show 2 * (position / 2) = position - 1 by omega]

/-- The parent digest in terms of a child and its sibling. -/
theorem node_ordered (values : ℕ → V) (level position : ℕ) :
    node level
        (ordered position (subtree leaf node values level position)
          (subtree leaf node values level (position ^^^ 1))).1
        (ordered position (subtree leaf node values level position)
          (subtree leaf node values level (position ^^^ 1))).2 =
      subtree leaf node values (level + 1) (position / 2) := by
  rw [ordered_siblings]
  rfl

@[simp] theorem length_siblings (values : ℕ → V) (height level position : ℕ) :
    (siblings leaf node values height level position).length = height := by
  induction height generalizing level position with
  | zero => rfl
  | succ height ih => rw [siblings, List.length_cons, ih]

/-- The siblings on the way to an ancestor, and those from there on. -/
theorem siblings_add (values : ℕ → V) (height height' level position : ℕ) :
    siblings leaf node values (height + height') level position =
      siblings leaf node values height level position ++
        siblings leaf node values height' (level + height) (position / 2 ^ height) := by
  induction height generalizing level position with
  | zero => simp [siblings]
  | succ height ih =>
    rw [Nat.succ_add, siblings, siblings, ih, List.cons_append, Nat.div_div_eq_div_mul,
      ← Nat.pow_succ', Nat.add_right_comm, Nat.add_assoc]

/-- The siblings of a node lead to its ancestor. -/
theorem climb_siblings (values : ℕ → V) (height level position : ℕ) :
    climb node level position (subtree leaf node values level position)
        (siblings leaf node values height level position) =
      subtree leaf node values (level + height) (position / 2 ^ height) := by
  induction height generalizing level position with
  | zero => simp [siblings, climb]
  | succ height ih =>
    rw [siblings, climb, @node_ordered _ _ leaf node values level position, ih, Nat.div_div_eq_div_mul, ← Nat.pow_succ',
      Nat.add_right_comm, Nat.add_assoc]

/-- Along the siblings of a node nothing is hashed but the pairs of the tree. -/
theorem climbed_siblings (values : ℕ → V) (height level position : ℕ)
    (hposition : position < 2 ^ height) :
    ∀ pair ∈ climbed node level position (subtree leaf node values level position)
        (siblings leaf node values height level position),
      pair ∈ hashed leaf node values (level + height) := by
  induction height generalizing level position with
  | zero => simp [siblings, climbed]
  | succ height ih =>
    have hparent : position / 2 < 2 ^ height := by
      rw [Nat.pow_succ] at hposition
      omega
    intro pair hpair
    rw [siblings, climbed, @node_ordered _ _ leaf node values level position, List.mem_cons] at hpair
    rcases hpair with rfl | hpair
    · refine ⟨level, position / 2, by omega, ?_, by rw [ordered_siblings]⟩
      rwa [show level + (height + 1) - 1 - level = height by omega]
    · have htree := ih (level + 1) (position / 2) hparent pair hpair
      rwa [Nat.add_right_comm] at htree

/-- An update changes no node that is not above the updated leaf. -/
theorem subtree_update_of_ne (values : ℕ → V) (address : ℕ) (value : V)
    (level position : ℕ) (hposition : address / 2 ^ level ≠ position) :
    subtree leaf node (Function.update values address value) level position =
      subtree leaf node values level position := by
  induction level generalizing position with
  | zero =>
    rw [Nat.pow_zero, Nat.div_one] at hposition
    rw [subtree, subtree, Function.update_of_ne (Ne.symm hposition)]
  | succ level ih =>
    have hchild : ∀ child, child / 2 = position → address / 2 ^ level ≠ child := by
      rintro child rfl hchild
      apply hposition
      rw [← hchild, Nat.pow_succ, Nat.div_div_eq_div_mul]
    rw [subtree, subtree, ih _ (hchild (2 * position) (by omega)),
      ih _ (hchild (2 * position + 1) (by omega))]

/-- The siblings of the ancestors of a leaf do not depend on the leaf. -/
theorem siblings_update (values : ℕ → V) (address : ℕ) (value : V) (height level : ℕ) :
    siblings leaf node (Function.update values address value) height level
        (address / 2 ^ level) =
      siblings leaf node values height level (address / 2 ^ level) := by
  induction height generalizing level with
  | zero => rfl
  | succ height ih =>
    have hsibling : address / 2 ^ level ≠ (address / 2 ^ level) ^^^ 1 := by
      rw [xor_one_eq]
      split <;> omega
    have hparent : address / 2 ^ level / 2 = address / 2 ^ (level + 1) := by
      rw [Nat.div_div_eq_div_mul, Nat.pow_succ]
    rw [siblings, siblings, subtree_update_of_ne _ _ _ _ _ hsibling, hparent, ih]

/-- From the new leaf the siblings of the old tree lead to the root of the new tree. -/
theorem climb_update (values : ℕ → V) (address : ℕ) (value : V) (height : ℕ) :
    climb node 0 address (leaf value) (siblings leaf node values height 0 address) =
      subtree leaf node (Function.update values address value) height
        (address / 2 ^ height) := by
  have hsiblings := @siblings_update _ _ leaf node values address value height 0
  rw [Nat.pow_zero, Nat.div_one] at hsiblings
  have hclimb := @climb_siblings _ _ leaf node (Function.update values address value) height 0
    address
  rw [hsiblings, subtree, Function.update_self, Nat.zero_add] at hclimb
  exact hclimb

theorem ordered_injective {position : ℕ} {current sibling current' sibling' : R}
    (heq : ordered position current sibling = ordered position current' sibling') :
    current = current' ∧ sibling = sibling' := by
  unfold ordered at heq
  split at heq <;> simp only [Prod.mk.injEq] at heq
  · exact heq
  · exact heq.symm

/-- Binding: only the digest of the node and its own siblings lead to the ancestor, unless two
pairs collide. -/
theorem eq_of_climb_eq (values : ℕ → V) (pairs : Set (ℕ × R × R))
    (hfree : CollisionFree node pairs) (level position : ℕ) (current : R) (path : List R)
    (hpath : ∀ pair ∈ climbed node level position current path, pair ∈ pairs)
    (htree : hashed leaf node values (level + path.length) ⊆ pairs)
    (hposition : position < 2 ^ path.length)
    (heq : climb node level position current path =
      subtree leaf node values (level + path.length) 0) :
    current = subtree leaf node values level position ∧
      path = siblings leaf node values path.length level position := by
  induction path generalizing level position current with
  | nil =>
    have hzero : position = 0 := by simpa using hposition
    subst hzero
    exact ⟨heq, rfl⟩
  | cons sibling path ih =>
    have hlength : level + 1 + path.length = level + (sibling :: path).length := by
      rw [List.length_cons]; omega
    have hparent : position / 2 < 2 ^ path.length := by
      rw [List.length_cons, Nat.pow_succ] at hposition
      omega
    obtain ⟨hnode, hrest⟩ := ih (level + 1) (position / 2) _
      (fun pair hpair => hpath pair (List.mem_cons_of_mem _ hpair)) (hlength ▸ htree) hparent
      (hlength ▸ heq)
    have hpair := hfree level _ _ (hpath _ List.mem_cons_self)
      (htree ⟨level, position / 2, by rw [List.length_cons]; omega, by
        rw [List.length_cons, show level + (path.length + 1) - 1 - level = path.length by omega]
        exact hparent, rfl⟩) hnode
    rw [← ordered_siblings] at hpair
    obtain ⟨hcurrent, hsibling⟩ := ordered_injective hpair
    exact ⟨hcurrent, by rw [List.length_cons, siblings, ← hrest, ← hsibling]⟩

end AuthenticationTree
