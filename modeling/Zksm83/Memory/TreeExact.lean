import Zksm83.Memory.Image

/-!
# The maintained tree is the tree of its bytes

A built tree holds exactly the digests of its bytes, padded with zeros to the size of the protocol,
and so does a tree after a write: the digests off the written path did not depend on the byte, and
those on it are recomputed from the leaf up. Reads then yield the siblings of the tree. Read
`build_eq_exact`, `write_exact` and `read_exact` first.
-/

namespace Zksm83

open AuthenticationTree Rejecting

/-- The bytes as an array that goes on with zeros. -/
def arrayOf (bytes : List Byte) (address : ℕ) : Byte := bytes.getD address 0

theorem arrayOf_set {bytes : List Byte} {address : ℕ} (haddress : address < bytes.length)
    (value : Byte) :
    arrayOf (bytes.set address value) = Function.update (arrayOf bytes) address value := by
  funext index
  by_cases heq : index = address
  · subst heq
    simp [arrayOf, haddress]
  · rw [Function.update_of_ne heq, arrayOf, arrayOf, List.getD_eq_getElem?_getD,
      List.getElem?_set_ne (Ne.symm heq), List.getD_eq_getElem?_getD]

theorem arrayOf_of_le {bytes : List Byte} {address : ℕ} (haddress : bytes.length ≤ address) :
    arrayOf bytes address = 0 := by
  rw [arrayOf, List.getD_eq_getElem?_getD, List.getElem?_eq_none haddress, Option.getD_none]

namespace MerkleTree

variable (sha256 : List Byte → CommitmentRoot) (kind : TreeKind)

/-- The digest of a node over an array. -/
abbrev digest (values : ℕ → Byte) (level position : ℕ) : CommitmentRoot :=
  subtree (leaf sha256 kind) (node sha256 kind) values level position

/-- The digest of a subtree of zeros. -/
def zeroDigest (level : ℕ) : CommitmentRoot := digest sha256 kind (fun _ => 0) level 0

/-- The digests of a level over an array, in a tree of some depth. -/
def levelDigests (values : ℕ → Byte) (depth level : ℕ) : List CommitmentRoot :=
  (List.range (2 ^ (depth - level))).map (digest sha256 kind values level)

/-- The tree that holds exactly the digests of its bytes. -/
def exact (depth : ℕ) (bytes : List Byte) : MerkleTree where
  kind := kind
  bytes := bytes
  levels := (List.range (depth + 1)).map (levelDigests sha256 kind (arrayOf bytes) depth)
  zeroRoots := (List.range (treeDepth + 1)).map (zeroDigest sha256 kind)
  storedDepth := depth
  root := digest sha256 kind (arrayOf bytes) treeDepth 0

theorem zeroDigest_succ (level : ℕ) :
    zeroDigest sha256 kind (level + 1) =
      node sha256 kind level (zeroDigest sha256 kind level) (zeroDigest sha256 kind level) :=
  congrArg (node sha256 kind level _) (subtree_const 0 level 1)

/-- The subtrees behind the bytes are subtrees of zeros. -/
theorem digest_of_le {bytes : List Byte} (level position : ℕ)
    (hposition : bytes.length ≤ position * 2 ^ level) :
    digest sha256 kind (arrayOf bytes) level position = zeroDigest sha256 kind level := by
  refine Eq.trans (subtree_congr level position ?_) (subtree_const 0 level position)
  intro index hlow _
  exact arrayOf_of_le (hposition.trans hlow)

/-- Every pair of a level has the parent of the tree, by the shortcut too. -/
theorem parents_range (values : ℕ → Byte) (level start count : ℕ) :
    parents sha256 kind level (zeroDigest sha256 kind level) (zeroDigest sha256 kind (level + 1))
        ((List.range' (2 * start) (2 * count)).map (digest sha256 kind values level)) =
      (List.range' start count).map (digest sha256 kind values (level + 1)) := by
  induction count generalizing start with
  | zero => rfl
  | succ count ih =>
    have hpair : (if digest sha256 kind values level (2 * start) = zeroDigest sha256 kind level ∧
          digest sha256 kind values level (2 * start + 1) = zeroDigest sha256 kind level then
        zeroDigest sha256 kind (level + 1)
      else node sha256 kind level (digest sha256 kind values level (2 * start))
        (digest sha256 kind values level (2 * start + 1))) =
        digest sha256 kind values (level + 1) start := by
      split
      · rename_i hzero
        rw [zeroDigest_succ]
        show _ = node sha256 kind level (digest sha256 kind values level (2 * start))
          (digest sha256 kind values level (2 * start + 1))
        rw [hzero.1, hzero.2]
      · rfl
    rw [show 2 * (count + 1) = 2 * count + 1 + 1 by omega, List.range'_succ, List.range'_succ,
      List.range'_succ, List.map_cons, List.map_cons, List.map_cons, parents, hpair,
      show 2 * start + 1 + 1 = 2 * (start + 1) by omega, ih]

theorem parents_levelDigests (values : ℕ → Byte) {depth level : ℕ} (hlevel : level < depth) :
    parents sha256 kind level (zeroDigest sha256 kind level) (zeroDigest sha256 kind (level + 1))
        (levelDigests sha256 kind values depth level) =
      levelDigests sha256 kind values depth (level + 1) := by
  have hwidth : 2 ^ (depth - level) = 2 * 2 ^ (depth - (level + 1)) := by
    rw [← Nat.pow_succ', show depth - level = depth - (level + 1) + 1 by omega]
  have hparents := parents_range sha256 kind values level 0 (2 ^ (depth - (level + 1)))
  rw [← hwidth, Nat.mul_zero, ← List.range_eq_range', ← List.range_eq_range'] at hparents
  exact hparents

/-- What the construction has reached after some levels. -/
def exactBuild (values : ℕ → Byte) (depth level : ℕ) : TreeBuild where
  levels := (List.range (level + 1)).map (levelDigests sha256 kind values depth)
  zeroChild := zeroDigest sha256 kind level
  zeroRoots := (List.range (level + 1)).map (zeroDigest sha256 kind)

theorem buildLevel_exact (values : ℕ → Byte) {depth level : ℕ} (hlevel : level < depth) :
    buildLevel sha256 kind (exactBuild sha256 kind values depth level) level =
      .ok (exactBuild sha256 kind values depth (level + 1)) := by
  have hlast : (exactBuild sha256 kind values depth level).levels.getLast? =
      some (levelDigests sha256 kind values depth level) := by
    rw [exactBuild, List.range_succ, List.map_append, List.getLast?_append]
    rfl
  unfold buildLevel
  rw [hlast]
  show Except.ok (TreeBuild.mk _ _ _) = _
  rw [show node sha256 kind level (exactBuild sha256 kind values depth level).zeroChild
      (exactBuild sha256 kind values depth level).zeroChild = zeroDigest sha256 kind (level + 1)
    from (zeroDigest_succ sha256 kind level).symm]
  show Except.ok (TreeBuild.mk (_ ++ [parents sha256 kind level (zeroDigest sha256 kind level) _ _])
    _ _) = _
  rw [parents_levelDigests sha256 kind values hlevel, exactBuild, exactBuild,
    List.range_succ (n := level + 1), List.map_append, List.map_append]
  rfl

theorem foldlM_buildLevel (values : ℕ → Byte) {depth count : ℕ} (hcount : count ≤ depth) :
    (List.range count).foldlM (buildLevel sha256 kind) (exactBuild sha256 kind values depth 0) =
      .ok (exactBuild sha256 kind values depth count) := by
  induction count with
  | zero => rfl
  | succ count ih =>
    rw [List.range_succ, List.foldlM_append, ih (Nat.le_of_succ_le hcount)]
    show buildLevel sha256 kind _ count >>= pure = _
    rw [buildLevel_exact sha256 kind values hcount]
    rfl

/-- Above the bytes the right children are subtrees of zeros. -/
theorem node_zeroDigest {bytes : List Byte} {level : ℕ} (hlevel : bytes.length ≤ 2 ^ level) :
    node sha256 kind level (digest sha256 kind (arrayOf bytes) level 0)
        (zeroDigest sha256 kind level) =
      digest sha256 kind (arrayOf bytes) (level + 1) 0 := by
  have hright := digest_of_le sha256 kind level 1 (by rw [Nat.one_mul]; exact hlevel)
  rw [← hright]
  rfl

theorem foldl_extendLevel {bytes : List Byte} (level count : ℕ)
    (hlevel : bytes.length ≤ 2 ^ level) :
    (List.range' level count).foldl (extendLevel sha256 kind)
        (digest sha256 kind (arrayOf bytes) level 0, zeroDigest sha256 kind level,
          (List.range (level + 1)).map (zeroDigest sha256 kind)) =
      (digest sha256 kind (arrayOf bytes) (level + count) 0,
        zeroDigest sha256 kind (level + count),
        (List.range (level + count + 1)).map (zeroDigest sha256 kind)) := by
  induction count generalizing level with
  | zero => rfl
  | succ count ih =>
    have hstep : extendLevel sha256 kind
        (digest sha256 kind (arrayOf bytes) level 0, zeroDigest sha256 kind level,
          (List.range (level + 1)).map (zeroDigest sha256 kind)) level =
        (digest sha256 kind (arrayOf bytes) (level + 1) 0, zeroDigest sha256 kind (level + 1),
          (List.range (level + 1 + 1)).map (zeroDigest sha256 kind)) := by
      simp only [extendLevel]
      rw [node_zeroDigest sha256 kind hlevel, ← zeroDigest_succ, List.range_succ (n := level + 1),
        List.map_append, List.map_singleton]
    have hnext : bytes.length ≤ 2 ^ (level + 1) :=
      hlevel.trans (Nat.pow_le_pow_right (by decide) (Nat.le_succ level))
    rw [List.range'_succ, List.foldl_cons, hstep, ih (level + 1) hnext, Nat.add_right_comm,
      Nat.add_assoc]

/-- The only digest of the highest stored level. -/
theorem top_levels (values : ℕ → Byte) (depth : ℕ) :
    ((List.range (depth + 1)).map (levelDigests sha256 kind values depth)).getLast?.bind
      List.head? = some (digest sha256 kind values depth 0) := by
  rw [List.range_succ, List.map_append, List.getLast?_append]
  show (levelDigests sha256 kind values depth depth).head? = _
  rw [levelDigests, Nat.sub_self]
  rfl

/-- The leaves of the construction are those of the tree. -/
theorem leaves_eq {depth : ℕ} {bytes : List Byte} (hlength : bytes.length = 2 ^ depth) :
    bytes.map (fun value => if value = 0 then leaf sha256 kind 0 else leaf sha256 kind value) =
      levelDigests sha256 kind (arrayOf bytes) depth 0 := by
  apply List.ext_getElem
  · rw [List.length_map, levelDigests, List.length_map, List.length_range, hlength, Nat.sub_zero]
  · intro index hindex _
    rw [List.length_map] at hindex
    have hvalue : arrayOf bytes index = bytes[index] := by
      rw [arrayOf, List.getD_eq_getElem _ _ hindex]
    simp only [levelDigests, List.getElem_map, List.getElem_range]
    show _ = leaf sha256 kind (arrayOf bytes index)
    rw [hvalue]
    split <;> rename_i hzero
    · rw [hzero]
    · rfl

/-- A tree of bytes is built of their digests. -/
theorem build_eq_exact {depth : ℕ} {bytes : List Byte} (hlength : bytes.length = 2 ^ depth)
    (hmin : minTreeDepth ≤ depth) (hmax : depth ≤ treeDepth) :
    build sha256 kind bytes = .ok (exact sha256 kind depth bytes) := by
  have hlow : cpuAddressSpaceBytes ≤ 2 ^ depth :=
    (show 2 ^ minTreeDepth ≤ 2 ^ depth from Nat.pow_le_pow_right (by decide) hmin)
  have hhigh : 2 ^ depth ≤ romBytes :=
    (show 2 ^ depth ≤ 2 ^ treeDepth from Nat.pow_le_pow_right (by decide) hmax)
  unfold build
  rw [if_neg (by
    rw [hlength]
    rintro (hpower | hsmall | hlarge)
    · exact hpower ⟨depth, rfl⟩
    · exact absurd hsmall (not_lt.mpr hlow)
    · exact absurd hlarge (not_lt.mpr hhigh))]
  have hdepth : bytes.length.log2 = depth := by rw [hlength, Nat.log2_two_pow]
  simp only [hdepth, hmin, hmax, and_self, not_true_eq_false, if_false]
  rw [leaves_eq sha256 kind hlength]
  show ((List.range depth).foldlM (buildLevel sha256 kind)
    (exactBuild sha256 kind (arrayOf bytes) depth 0) >>= _) = _
  rw [foldlM_buildLevel sha256 kind (arrayOf bytes) le_rfl]
  show (okOr ((exactBuild sha256 kind (arrayOf bytes) depth depth).levels.getLast?.bind
    List.head?) >>= _) = _
  rw [show (exactBuild sha256 kind (arrayOf bytes) depth depth).levels.getLast?.bind List.head? =
    some (digest sha256 kind (arrayOf bytes) depth 0) from top_levels sha256 kind _ depth]
  have hextend := foldl_extendLevel sha256 kind depth (treeDepth - depth) hlength.le
  rw [Nat.add_sub_cancel' hmax] at hextend
  show Except.ok (MerkleTree.mk kind bytes _
    ((List.range' depth (treeDepth - depth)).foldl (extendLevel sha256 kind)
      (digest sha256 kind (arrayOf bytes) depth 0, zeroDigest sha256 kind depth,
        (List.range (depth + 1)).map (zeroDigest sha256 kind))).2.2 depth
    ((List.range' depth (treeDepth - depth)).foldl (extendLevel sha256 kind)
      (digest sha256 kind (arrayOf bytes) depth 0, zeroDigest sha256 kind depth,
        (List.range (depth + 1)).map (zeroDigest sha256 kind))).1) = _
  rw [hextend]
  rfl

/-- The siblings of a leaf in the tree of an array. -/
abbrev siblingsOf (values : ℕ → Byte) (height level position : ℕ) : List CommitmentRoot :=
  siblings (leaf sha256 kind) (node sha256 kind) values height level position

/-- The path of a leaf in the tree of an array. -/
def pathOf (values : ℕ → Byte) (address : ℕ) : MerklePath :=
  ⟨(siblingsOf sha256 kind values treeDepth 0 address).toArray, by
    rw [List.size_toArray, length_siblings]⟩

@[simp] theorem toList_pathOf (values : ℕ → Byte) (address : ℕ) :
    (pathOf sha256 kind values address).toList =
      siblingsOf sha256 kind values treeDepth 0 address := rfl

theorem getElem?_levelDigests (values : ℕ → Byte) {depth level position : ℕ}
    (hposition : position < 2 ^ (depth - level)) :
    (levelDigests sha256 kind values depth level)[position]? =
      some (digest sha256 kind values level position) := by
  rw [levelDigests, List.getElem?_map, List.getElem?_range hposition]
  rfl

/-- A level below the top has an even number of digests, so siblings are in range together. -/
theorem xor_one_lt {depth level position : ℕ} (hlevel : level < depth)
    (hposition : position < 2 ^ (depth - level)) : position ^^^ 1 < 2 ^ (depth - level) := by
  have hwidth : 2 ^ (depth - level) = 2 * 2 ^ (depth - (level + 1)) := by
    rw [← Nat.pow_succ', show depth - level = depth - (level + 1) + 1 by omega]
  rw [xor_one_eq]
  split <;> omega

theorem div_two_lt {depth level position : ℕ} (hlevel : level < depth)
    (hposition : position < 2 ^ (depth - level)) :
    position / 2 < 2 ^ (depth - (level + 1)) := by
  have hwidth : 2 ^ (depth - level) = 2 * 2 ^ (depth - (level + 1)) := by
    rw [← Nat.pow_succ', show depth - level = depth - (level + 1) + 1 by omega]
  omega

theorem levelSiblings_exact (values : ℕ → Byte) {depth level count position : ℕ}
    (hcount : level + count ≤ depth) (hposition : position < 2 ^ (depth - level)) :
    levelSiblings ((List.range' level count).map (levelDigests sha256 kind values depth)) position =
      .ok (siblingsOf sha256 kind values count level position) := by
  induction count generalizing level position with
  | zero => rfl
  | succ count ih =>
    have hlevel : level < depth := by omega
    rw [List.range'_succ, List.map_cons, levelSiblings,
      getElem?_levelDigests sha256 kind values (xor_one_lt hlevel hposition), Nat.shiftRight_one,
      ih (by omega) (div_two_lt hlevel hposition)]
    rfl

/-- Above the bytes the siblings are subtrees of zeros. -/
theorem siblingsOf_zeros {bytes : List Byte} (level count : ℕ) (hlevel : bytes.length ≤ 2 ^ level) :
    siblingsOf sha256 kind (arrayOf bytes) count level 0 =
      (List.range' level count).map (zeroDigest sha256 kind) := by
  induction count generalizing level with
  | zero => rfl
  | succ count ih =>
    have hsibling := digest_of_le sha256 kind level (0 ^^^ 1)
      (by rw [Nat.zero_xor, Nat.one_mul]; exact hlevel)
    rw [siblingsOf, siblings, List.range'_succ, List.map_cons]
    exact congrArg₂ List.cons hsibling
      (ih (level + 1) (hlevel.trans (Nat.pow_le_pow_right (by decide) (Nat.le_succ level))))

theorem mapM_zeroRoots (levels : List ℕ) (hlevels : ∀ level ∈ levels, level < treeDepth) :
    levels.mapM (fun level => okOr ((List.range (treeDepth + 1)).map
      (zeroDigest sha256 kind))[level]?) = .ok (levels.map (zeroDigest sha256 kind)) := by
  induction levels with
  | nil => rfl
  | cons level levels ih =>
    have hlevel : level < treeDepth + 1 :=
      Nat.lt_succ_of_lt (hlevels level List.mem_cons_self)
    rw [List.mapM_cons, ih (fun other hother => hlevels other (List.mem_cons_of_mem _ hother)),
      List.getElem?_map, List.getElem?_range hlevel]
    rfl

/-- A read yields the byte and its path in the tree. -/
theorem read_exact {depth address : ℕ} {bytes : List Byte} (hlength : bytes.length = 2 ^ depth)
    (hmax : depth ≤ treeDepth) (haddress : address < bytes.length) :
    (exact sha256 kind depth bytes).read address =
      .ok (bytes[address], pathOf sha256 kind (arrayOf bytes) address) := by
  have hstored : levelSiblings ((exact sha256 kind depth bytes).levels.take depth) address =
      .ok (siblingsOf sha256 kind (arrayOf bytes) depth 0 address) := by
    rw [exact, ← List.map_take, List.take_range, Nat.min_eq_left (Nat.le_succ depth),
      List.range_eq_range']
    exact levelSiblings_exact sha256 kind _ (by rw [Nat.zero_add]) (hlength ▸ haddress)
  have hzeros := mapM_zeroRoots sha256 kind (List.range' depth (treeDepth - depth)) (by
    intro level hlevel
    rw [List.mem_range'_1, Nat.add_sub_cancel' hmax] at hlevel
    exact hlevel.2)
  have hpath : siblingsOf sha256 kind (arrayOf bytes) depth 0 address ++
      (List.range' depth (treeDepth - depth)).map (zeroDigest sha256 kind) =
        siblingsOf sha256 kind (arrayOf bytes) treeDepth 0 address := by
    have hroot : address / 2 ^ depth = 0 := Nat.div_eq_of_lt (hlength ▸ haddress)
    have hadd := @siblings_add _ _ (leaf sha256 kind) (node sha256 kind) (arrayOf bytes) depth
      (treeDepth - depth) 0 address
    rw [Nat.add_sub_cancel' hmax, Nat.zero_add, hroot] at hadd
    rw [← siblingsOf_zeros sha256 kind depth _ hlength.le]
    exact hadd.symm
  unfold read
  rw [show (exact sha256 kind depth bytes).bytes[address]? = some bytes[address] from
    List.getElem?_eq_getElem haddress]
  show (levelSiblings ((exact sha256 kind depth bytes).levels.take depth) address >>= _) = _
  rw [hstored]
  show (((List.range' depth (treeDepth - depth)).mapM (fun level =>
    okOr ((List.range (treeDepth + 1)).map (zeroDigest sha256 kind))[level]?)) >>= _) = _
  rw [hzeros]
  show (merklePath (siblingsOf sha256 kind (arrayOf bytes) depth 0 address ++
    (List.range' depth (treeDepth - depth)).map (zeroDigest sha256 kind)) >>= _) = _
  rw [hpath, merklePath, dif_pos (length_siblings _ _ _ _)]
  rfl

theorem read_eq_error {tree : MerkleTree} {address : ℕ} (haddress : tree.bytes.length ≤ address) :
    tree.read address = .error {} := by
  rw [read, List.getElem?_eq_none haddress]
  rfl

section Write

variable (depth : ℕ) (bytes : List Byte) (address : ℕ) (value : Byte)

/-- The levels during a write: below a level they are those of the new bytes. -/
def writingLevels (level : ℕ) : List (List CommitmentRoot) :=
  (List.range (depth + 1)).map (fun index => levelDigests sha256 kind
    (if index < level then arrayOf (bytes.set address value) else arrayOf bytes) depth index)

/-- The tree during a write, before its root is replaced. -/
def writing (level : ℕ) : MerkleTree :=
  { exact sha256 kind depth bytes with
    bytes := bytes.set address value
    levels := writingLevels sha256 kind depth bytes address value level }

variable {depth bytes address}

theorem set_levelDigests (haddress : address < bytes.length) (level : ℕ) :
    (levelDigests sha256 kind (arrayOf bytes) depth level).set (address / 2 ^ level)
        (digest sha256 kind (arrayOf (bytes.set address value)) level (address / 2 ^ level)) =
      levelDigests sha256 kind (arrayOf (bytes.set address value)) depth level := by
  apply List.ext_getElem
  · simp [levelDigests]
  · intro position hposition _
    rw [List.getElem_set]
    split
    · rename_i heq
      subst heq
      simp [levelDigests]
    · rename_i hne
      simp only [levelDigests, List.getElem_map, List.getElem_range]
      rw [arrayOf_set haddress]
      exact (subtree_update_of_ne _ _ _ _ _ hne).symm

theorem writingLevels_succ (level : ℕ) :
    writingLevels sha256 kind depth bytes address value (level + 1) =
      (writingLevels sha256 kind depth bytes address value level).set level
        (levelDigests sha256 kind (arrayOf (bytes.set address value)) depth level) := by
  apply List.ext_getElem
  · simp [writingLevels]
  · intro index hindex _
    rw [List.getElem_set]
    simp only [writingLevels, List.getElem_map, List.getElem_range]
    by_cases heq : level = index
    · subst heq
      rw [if_pos (Nat.lt_succ_self _), if_pos rfl]
    · simp only [Nat.lt_succ_iff_lt_or_eq, heq, Ne.symm heq, or_false, if_false]

theorem getElem?_writingLevels {level index : ℕ} (hindex : index ≤ depth) :
    (writingLevels sha256 kind depth bytes address value level)[index]? =
      some (levelDigests sha256 kind
        (if index < level then arrayOf (bytes.set address value) else arrayOf bytes) depth
        index) := by
  rw [writingLevels, List.getElem?_map, List.getElem?_range (Nat.lt_succ_of_le hindex)]
  rfl

theorem path_position_lt (hlength : bytes.length = 2 ^ depth) (haddress : address < bytes.length)
    {level : ℕ} (hlevel : level ≤ depth) : address / 2 ^ level < 2 ^ (depth - level) := by
  rw [Nat.div_lt_iff_lt_mul (Nat.two_pow_pos level), ← Nat.pow_add, Nat.sub_add_cancel hlevel]
  exact hlength ▸ haddress

/-- The digest of the written path at a level is entered. -/
theorem setDigest_writing (hlength : bytes.length = 2 ^ depth) (haddress : address < bytes.length)
    {level : ℕ} (hlevel : level ≤ depth) :
    Accepts (setDigest level (address / 2 ^ level)
        (digest sha256 kind (arrayOf (bytes.set address value)) level (address / 2 ^ level)))
      (writing sha256 kind depth bytes address value level) ()
      (writing sha256 kind depth bytes address value (level + 1)) := by
  have hposition := path_position_lt hlength haddress hlevel
  have hold := @getElem?_writingLevels sha256 kind depth bytes address value level level hlevel
  rw [if_neg (lt_irrefl level)] at hold
  have hnew : writing sha256 kind depth bytes address value (level + 1) =
      { writing sha256 kind depth bytes address value level with
        levels := (writingLevels sha256 kind depth bytes address value level).set level
          (levelDigests sha256 kind (arrayOf (bytes.set address value)) depth level) } := by
    rw [← writingLevels_succ]
    rfl
  refine Accepts.get_bind ?_
  rw [show (writing sha256 kind depth bytes address value level).levels[level]? = _ from hold]
  refine Accepts.ofExcept_bind rfl ?_
  rw [if_neg (by rw [levelDigests, List.length_map, List.length_range]; omega),
    set_levelDigests sha256 kind value haddress, hnew]
  exact (accepts_modify _ _ _ _).mpr rfl

/-- The parent of the written path is computed from updated digests. -/
theorem parent_writing (hlength : bytes.length = 2 ^ depth) (haddress : address < bytes.length)
    {level : ℕ} (hlevel : level < depth) :
    (writing sha256 kind depth bytes address value (level + 1)).parent sha256 level level
        (address / 2 ^ level) =
      .ok (digest sha256 kind (arrayOf (bytes.set address value)) (level + 1)
        (address / 2 ^ (level + 1))) := by
  have hposition := path_position_lt hlength haddress hlevel.le
  have hparent : address / 2 ^ (level + 1) = address / 2 ^ level / 2 := by
    rw [Nat.pow_succ, Nat.div_div_eq_div_mul]
  have heven : address / 2 ^ level - address / 2 ^ level % 2 = 2 * (address / 2 ^ level / 2) := by
    omega
  have hwidth : 2 ^ (depth - level) = 2 * 2 ^ (depth - (level + 1)) := by
    rw [← Nat.pow_succ', show depth - level = depth - (level + 1) + 1 by omega]
  unfold parent
  rw [show (writing sha256 kind depth bytes address value (level + 1)).levels[level]? = _ from
    getElem?_writingLevels sha256 kind value hlevel.le, if_pos (Nat.lt_succ_self level)]
  show (okOr (levelDigests sha256 kind (arrayOf (bytes.set address value)) depth
    level)[address / 2 ^ level - address / 2 ^ level % 2]? >>= _) = _
  rw [heven, getElem?_levelDigests sha256 kind _ (by omega)]
  show (okOr (levelDigests sha256 kind (arrayOf (bytes.set address value)) depth
    level)[2 * (address / 2 ^ level / 2) + 1]? >>= _) = _
  rw [getElem?_levelDigests sha256 kind _ (by omega), hparent]
  rfl

theorem writeLevels_writing (hlength : bytes.length = 2 ^ depth)
    (haddress : address < bytes.length) {level count : ℕ} (hcount : level + count ≤ depth) :
    Accepts (writeLevels sha256 count level (address / 2 ^ level))
      (writing sha256 kind depth bytes address value (level + 1)) ()
      (writing sha256 kind depth bytes address value (level + count + 1)) := by
  induction count generalizing level with
  | zero => exact (accepts_pure _ _ _ _).mpr ⟨rfl, rfl⟩
  | succ count ih =>
    have hshift : (address / 2 ^ level) >>> 1 = address / 2 ^ (level + 1) := by
      rw [Nat.shiftRight_one, Nat.pow_succ, Nat.div_div_eq_div_mul]
    refine Accepts.get_bind ?_
    rw [hshift]
    refine Accepts.ofExcept_bind
      (parent_writing sha256 kind value hlength haddress (by omega)) ?_
    refine Accepts.bind (setDigest_writing sha256 kind value hlength haddress (by omega)) ?_
    rw [show level + (count + 1) + 1 = level + 1 + count + 1 by omega]
    exact ih (by omega)

theorem extendRoot_exact {bytes : List Byte} {tree : MerkleTree} (hkind : tree.kind = kind)
    (hzeros : tree.zeroRoots = (List.range (treeDepth + 1)).map (zeroDigest sha256 kind))
    (level count : ℕ) (hlevel : bytes.length ≤ 2 ^ level) (hcount : level + count ≤ treeDepth) :
    tree.extendRoot sha256 (List.range' level count) (digest sha256 kind (arrayOf bytes) level 0) =
      .ok (digest sha256 kind (arrayOf bytes) (level + count) 0) := by
  induction count generalizing level with
  | zero => rfl
  | succ count ih =>
    rw [List.range'_succ, extendRoot, hzeros, List.getElem?_map,
      List.getElem?_range (show level < treeDepth + 1 by omega)]
    show tree.extendRoot sha256 _ (node sha256 tree.kind level _ (zeroDigest sha256 kind level)) = _
    rw [hkind, node_zeroDigest sha256 kind hlevel,
      ih (level + 1) (hlevel.trans (Nat.pow_le_pow_right (by decide) (Nat.le_succ level)))
        (by omega), Nat.add_right_comm, Nat.add_assoc]

/-- A write leaves the tree of the new bytes. -/
theorem write_exact (hlength : bytes.length = 2 ^ depth) (hmax : depth ≤ treeDepth)
    (haddress : address < bytes.length) :
    Accepts (write sha256 address value) (exact sha256 kind depth bytes) ()
      (exact sha256 kind depth (bytes.set address value)) := by
  have hset : (bytes.set address value).length = 2 ^ depth := by rw [List.length_set, hlength]
  have hlevels : writingLevels sha256 kind depth bytes address value (depth + 1) =
      (exact sha256 kind depth (bytes.set address value)).levels := by
    apply List.map_congr_left
    intro index hindex
    rw [if_pos (List.mem_range.mp hindex)]
  have hstart : writing sha256 kind depth bytes address value 0 =
      { exact sha256 kind depth bytes with bytes := bytes.set address value } := rfl
  have hleaf := setDigest_writing sha256 kind value hlength haddress (Nat.zero_le depth)
  have hpath := @writeLevels_writing sha256 kind depth bytes address value hlength haddress 0 depth
    (by omega)
  have hvalue : digest sha256 kind (arrayOf (bytes.set address value)) 0 address =
      leaf sha256 kind value := by
    rw [digest, subtree, arrayOf_set haddress, Function.update_self]
  rw [Nat.pow_zero, Nat.div_one] at hleaf hpath
  rw [hvalue, hstart] at hleaf
  have htop : (writing sha256 kind depth bytes address value (0 + depth + 1)).levels.getLast?.bind
      List.head? = some (digest sha256 kind (arrayOf (bytes.set address value)) depth 0) := by
    rw [Nat.zero_add]
    show (writingLevels sha256 kind depth bytes address value (depth + 1)).getLast?.bind _ = _
    rw [hlevels]
    exact top_levels sha256 kind _ depth
  have hroot := @extendRoot_exact sha256 kind (bytes.set address value)
    (writing sha256 kind depth bytes address value (0 + depth + 1)) rfl rfl depth
    (treeDepth - depth) hset.le (by omega)
  rw [Nat.add_sub_cancel' hmax] at hroot
  unfold write
  refine Accepts.get_bind ?_
  rw [if_neg (show ¬ (exact sha256 kind depth bytes).bytes.length ≤ address from
    not_le.mpr haddress)]
  refine Accepts.modify_bind (Accepts.get_bind ?_)
  refine Accepts.bind hleaf (Accepts.get_bind ?_)
  refine Accepts.bind hpath (Accepts.get_bind ?_)
  rw [htop]
  refine Accepts.ofExcept_bind rfl (Accepts.ofExcept_bind hroot ?_)
  refine (accepts_modify _ _ _ _).mpr ?_
  rw [Nat.zero_add]
  show MerkleTree.mk _ _ (exact sha256 kind depth (bytes.set address value)).levels _ _ _ =
    MerkleTree.mk _ _ (writingLevels sha256 kind depth bytes address value (depth + 1)) _ _ _
  rw [hlevels]
  rfl

end Write

end MerkleTree

end Zksm83
