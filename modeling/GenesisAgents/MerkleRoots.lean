import GenesisAgents.Anchors
import GenesisAgents.Library.MerkleTree

/-! Does the Merkle root of a day commit to its leaves? Which lists of leaf hashes `_build_merkle_tree`
gives one root. -/

namespace GenesisAgents

namespace Auditing

variable (A : Auditing)

def parentHash (left right : String) : String := A.sha256 (left ++ right)

/-- The texts that `_build_merkle_tree` hashes. -/
def hashedTexts (leafHashes : List String) : List String :=
  if leafHashes.isEmpty then ["empty"]
  else (MerkleTree.treePairs A.parentHash leafHashes).map fun pair => pair.1 ++ pair.2

def CollisionFree (texts : List String) : Prop :=
  ∀ text ∈ texts, ∀ other ∈ texts, A.sha256 text = A.sha256 other → text = other

/-- `upper` stands in for `lower`: with the repeated last nodes of odd levels written out, its hashes
are those of adjacent pairs of `lower`, of pairs of such hashes and so on; or it is the hash that an
empty day has for a root. -/
def StandsFor (upper lower : List String) : Prop :=
  (lower = [] ∧ upper = [A.sha256 "empty"]) ∨
    (upper ≠ [] ∧ lower ≠ [] ∧ MerkleTree.Within A.parentHash upper lower)

theorem nextLevel_eq (level : List String) : A.nextLevel level = MerkleTree.parents A.parentHash level := by
  induction level using nextLevel.induct with
  | case1 => rfl
  | case2 left => rfl
  | case3 left right rest later =>
    rw [nextLevel, later]
    rfl

theorem merkleLevels_last (rounds : Nat) (current : List String) (enough : current.length ≤ rounds + 1) :
    (A.merkleLevels rounds current).getLast? =
      some (MerkleTree.climb A.parentHash (MerkleTree.height current) current) := by
  induction rounds generalizing current with
  | zero => simp [merkleLevels, MerkleTree.height_single current enough, MerkleTree.climb]
  | succ rounds later =>
    rw [merkleLevels]
    by_cases several : 1 < current.length
    · have halved := A.nextLevel_length current
      rw [if_pos several, List.getLast?_cons, later (A.nextLevel current) (by omega), Option.getD_some,
        MerkleTree.height_parents A.parentHash current several, MerkleTree.climb, nextLevel_eq]
    · rw [if_neg several, MerkleTree.height_single current (by omega)]
      rfl

theorem root_climb (leafHashes : List String) (present : leafHashes ≠ []) :
    MerkleTree.climb A.parentHash (MerkleTree.height leafHashes) leafHashes =
      [(A.buildMerkleTree leafHashes).root] := by
  have filled : leafHashes.isEmpty = false := by simpa using present
  have last := A.root_of_last leafHashes present
  rw [buildMerkleTree, filled] at last ⊢
  rw [← Option.some.injEq, ← A.merkleLevels_last leafHashes.length leafHashes (by omega)]
  exact last

theorem root_empty : (A.buildMerkleTree []).root = A.sha256 "empty" := rfl

theorem append_injective (left right left' right' : String) (width : left.length = left'.length)
    (same : left ++ right = left' ++ right') : left = left' ∧ right = right' := by
  have texts : left.toList ++ right.toList = left'.toList ++ right'.toList := by
    rw [← String.toList_append, ← String.toList_append, same]
  have halves := List.append_inj texts (by rw [String.length_toList, String.length_toList, width])
  exact ⟨String.toList_inj.mp halves.1, String.toList_inj.mp halves.2⟩

section

variable (digests : ∀ text, (A.sha256 text).length = 64)

include digests

theorem treePairs_width (leafHashes : List String) (hex : ∀ hash ∈ leafHashes, hash.length = 64) :
    ∀ pair ∈ MerkleTree.treePairs A.parentHash leafHashes, pair.1.length = 64 ∧ pair.2.length = 64 :=
  MerkleTree.joined_inside A.parentHash (fun hash => hash.length = 64) (fun _ _ => digests _) _ leafHashes hex

theorem apart_of_collisionFree (leaves others : List String) (present : leaves ≠ []) (others_present : others ≠ [])
    (hex : ∀ hash ∈ leaves, hash.length = 64) (hex' : ∀ hash ∈ others, hash.length = 64)
    (collisionFree : A.CollisionFree (A.hashedTexts leaves ++ A.hashedTexts others)) :
    MerkleTree.Apart A.parentHash
      (MerkleTree.treePairs A.parentHash leaves ++ MerkleTree.treePairs A.parentHash others) := by
  have texts : A.hashedTexts leaves ++ A.hashedTexts others =
      (MerkleTree.treePairs A.parentHash leaves ++ MerkleTree.treePairs A.parentHash others).map
        fun pair => pair.1 ++ pair.2 := by
    rw [hashedTexts, hashedTexts, if_neg (by simpa using present), if_neg (by simpa using others_present),
      List.map_append]
  have widths : ∀ pair ∈ MerkleTree.treePairs A.parentHash leaves ++ MerkleTree.treePairs A.parentHash others,
      pair.1.length = 64 ∧ pair.2.length = 64 := by
    intro pair member
    rcases List.mem_append.mp member with member | member
    · exact A.treePairs_width digests leaves hex pair member
    · exact A.treePairs_width digests others hex' pair member
  intro pair member other otherMember same
  have oneText : pair.1 ++ pair.2 = other.1 ++ other.2 := by
    apply collisionFree
    · rw [texts]
      exact List.mem_map_of_mem member
    · rw [texts]
      exact List.mem_map_of_mem otherMember
    · exact same
  have halves := append_injective pair.1 pair.2 other.1 other.2
    ((widths pair member).1.trans (widths other otherMember).1.symm) oneText
  exact Prod.ext halves.1 halves.2

/-- The root of an empty day is that of one other list at most. -/
theorem root_eq_empty_iff (leaves : List String) (present : leaves ≠ [])
    (hex : ∀ hash ∈ leaves, hash.length = 64)
    (collisionFree : A.CollisionFree (A.hashedTexts leaves ++ A.hashedTexts [])) :
    (A.buildMerkleTree leaves).root = (A.buildMerkleTree []).root ↔ leaves = [A.sha256 "empty"] := by
  have top := A.root_climb leaves present
  rw [root_empty]
  constructor
  · intro same
    by_cases several : 1 < leaves.length
    · -- The root is the digest of 128 characters.
      rcases Nat.exists_eq_add_one.mpr (MerkleTree.height_positive leaves several) with ⟨rounds, heights⟩
      rw [heights] at top
      have member : (A.buildMerkleTree leaves).root ∈ MerkleTree.climb A.parentHash (rounds + 1) leaves := by
        rw [top]
        exact List.mem_singleton_self _
      rcases MerkleTree.climb_joined A.parentHash rounds leaves _ member with ⟨pair, inside, digest⟩
      rw [← heights] at inside
      have widths := A.treePairs_width digests leaves hex pair inside
      have oneText : pair.1 ++ pair.2 = "empty" := by
        apply collisionFree
        · rw [hashedTexts, if_neg (by simpa using present)]
          exact List.mem_append_left _ (List.mem_map_of_mem inside)
        · exact List.mem_append_right _ (List.mem_singleton_self _)
        · exact digest.symm.trans same
      have sizes := congrArg String.length oneText
      rw [String.length_append, widths.1, widths.2] at sizes
      contradiction
    · have filled := List.length_pos_iff.mpr present
      rcases List.length_eq_one_iff.mp (show leaves.length = 1 by omega) with ⟨leaf, rfl⟩
      rw [← same]
      exact top
  · rintro rfl
    rfl

end

theorem standsFor_empty (upper : List String) : A.StandsFor upper [] ↔ upper = [A.sha256 "empty"] := by
  simp [StandsFor]

theorem empty_standsFor (lower : List String) : ¬ A.StandsFor [] lower := by
  simp [StandsFor]

theorem standsFor_present (upper lower : List String) (present : upper ≠ []) (present' : lower ≠ []) :
    A.StandsFor upper lower ↔ MerkleTree.Within A.parentHash upper lower := by
  simp [StandsFor, present, present']

theorem within_refl (leaves : List String) : MerkleTree.Within A.parentHash leaves leaves :=
  ⟨0, leaves, .refl leaves, Nat.zero_add _, rfl⟩

/-- The root of two lists is the same exactly when they are the same or one stands for the other. -/
theorem root_eq_iff (digests : ∀ text, (A.sha256 text).length = 64) (leaves others : List String)
    (hex : ∀ hash ∈ leaves, hash.length = 64) (hex' : ∀ hash ∈ others, hash.length = 64)
    (collisionFree : A.CollisionFree (A.hashedTexts leaves ++ A.hashedTexts others)) :
    (A.buildMerkleTree leaves).root = (A.buildMerkleTree others).root ↔
      leaves = others ∨ A.StandsFor leaves others ∨ A.StandsFor others leaves := by
  have swapped : A.CollisionFree (A.hashedTexts others ++ A.hashedTexts leaves) := by
    intro text member other otherMember
    apply collisionFree
    · exact (List.perm_append_comm.mem_iff).mp member
    · exact (List.perm_append_comm.mem_iff).mp otherMember
  by_cases present : leaves = []
  · subst present
    by_cases present' : others = []
    · simp [present']
    · rw [eq_comm, A.root_eq_empty_iff digests others present' hex' swapped, standsFor_empty]
      have other := A.empty_standsFor others
      have apart : ¬ [] = others := fun same => present' same.symm
      tauto
  · by_cases present' : others = []
    · subst present'
      rw [A.root_eq_empty_iff digests leaves present hex collisionFree, standsFor_empty]
      have other := A.empty_standsFor leaves
      tauto
    · have apart := A.apart_of_collisionFree digests leaves others present present' hex hex' collisionFree
      have roots := MerkleTree.root_eq_iff A.parentHash leaves others apart
      rw [A.root_climb leaves present, A.root_climb others present', List.singleton_inj] at roots
      rw [roots, A.standsFor_present _ _ present present', A.standsFor_present _ _ present' present]
      constructor
      · exact Or.inr
      · rintro (rfl | shared)
        · exact .inl (A.within_refl leaves)
        · exact shared

/-- The Merkle root commits to the leaves exactly of lists neither of which stands for the other. -/
theorem merkle_root_commits_iff (digests : ∀ text, (A.sha256 text).length = 64) (leaves others : List String)
    (hex : ∀ hash ∈ leaves, hash.length = 64) (hex' : ∀ hash ∈ others, hash.length = 64)
    (collisionFree : A.CollisionFree (A.hashedTexts leaves ++ A.hashedTexts others)) :
    ((A.buildMerkleTree leaves).root = (A.buildMerkleTree others).root → leaves = others) ↔
      leaves = others ∨ ¬ (A.StandsFor leaves others ∨ A.StandsFor others leaves) := by
  rw [A.root_eq_iff digests leaves others hex hex' collisionFree]
  tauto

theorem root_commits_to_lists_of_length (digests : ∀ text, (A.sha256 text).length = 64)
    (leaves others : List String)
    (hex : ∀ hash ∈ leaves, hash.length = 64) (hex' : ∀ hash ∈ others, hash.length = 64)
    (collisionFree : A.CollisionFree (A.hashedTexts leaves ++ A.hashedTexts others))
    (sizes : leaves.length = others.length)
    (same : (A.buildMerkleTree leaves).root = (A.buildMerkleTree others).root) : leaves = others := by
  have alike (upper lower : List String) (sizes : upper.length = lower.length)
      (stands : A.StandsFor upper lower) : upper = lower := by
    rcases stands with ⟨rfl, rfl⟩ | ⟨_, _, within⟩
    · cases sizes
    · exact MerkleTree.eq_of_within A.parentHash upper lower sizes within
  rcases (A.root_eq_iff digests leaves others hex hex' collisionFree).mp same with same | stands | stands
  · exact same
  · exact alike leaves others sizes stands
  · exact (alike others leaves sizes.symm stands).symm

end Auditing

/-! A last row that is there twice: the leaves are the SHA-256 of `a`, `b` and `c`. -/

def leafA : String := "ca978112ca1bbdcafac231b39a23dc4da786eff8147c4e72b9807785afee48bb"

def leafB : String := "3e23e8160039594a33894f6564e1b1348bbd7a0088d42c4acb73eeaed59c009d"

def leafC : String := "2e7d2c03a9507ae265ecf5b5356885a53393a2029d241394997265a1a25aefc6"

def parentAB : String := "62af5c3cb8da3e4f25061e829ebeea5c7513c54949115b1acc225930a90154da"

def parentCC : String := "d50c873877f38fcbc56dbe836b9d979912efcb587ed8eea919372d403b5c2bd4"

def threeLeavesSha (text : String) : String :=
  if text = leafA ++ leafB then parentAB
  else if text = leafC ++ leafC then parentCC
  else "0bdf27bf7ec894ca7cadfe491ec1a3ece840f117989e8c5e9bd7086467bf6c38"

def threeLeavesAuditing : Auditing where
  sha256 := threeLeavesSha
  lower := id
  redactText := id
  refusesText _ := false

theorem threeLeavesSha_length (text : String) : (threeLeavesSha text).length = 64 := by
  rw [threeLeavesSha]
  split
  · decide
  · split
    · decide
    · decide

theorem threeLeaves_hex : ∀ hash ∈ [leafA, leafB, leafC], hash.length = 64 := by
  decide

theorem doubledLeaves_hex : ∀ hash ∈ [leafA, leafB, leafC, leafC], hash.length = 64 := by
  decide

theorem threeLeaves_collisionFree : threeLeavesAuditing.CollisionFree
    (threeLeavesAuditing.hashedTexts [leafA, leafB, leafC] ++
      threeLeavesAuditing.hashedTexts [leafA, leafB, leafC, leafC]) := by
  have texts : threeLeavesAuditing.hashedTexts [leafA, leafB, leafC] ++
      threeLeavesAuditing.hashedTexts [leafA, leafB, leafC, leafC] =
        [leafA ++ leafB, leafC ++ leafC, parentAB ++ parentCC,
          leafA ++ leafB, leafC ++ leafC, parentAB ++ parentCC] := by
    decide
  rw [texts, Auditing.CollisionFree]
  decide

theorem doubled_last_row_shares_root :
    ¬ ∀ (A : Auditing) (leaves others : List String), (∀ text, (A.sha256 text).length = 64) →
      (∀ hash ∈ leaves, hash.length = 64) → (∀ hash ∈ others, hash.length = 64) →
      A.CollisionFree (A.hashedTexts leaves ++ A.hashedTexts others) →
      (A.buildMerkleTree leaves).root = (A.buildMerkleTree others).root → leaves = others := by
  intro commits
  have same : (threeLeavesAuditing.buildMerkleTree [leafA, leafB, leafC]).root =
      (threeLeavesAuditing.buildMerkleTree [leafA, leafB, leafC, leafC]).root := by
    decide
  have equal := commits threeLeavesAuditing _ _ threeLeavesSha_length threeLeaves_hex doubledLeaves_hex
    threeLeaves_collisionFree same
  exact absurd (congrArg List.length equal) (by decide)

theorem doubled_last_row_stands_for :
    ((threeLeavesAuditing.buildMerkleTree [leafA, leafB, leafC]).root =
        (threeLeavesAuditing.buildMerkleTree [leafA, leafB, leafC, leafC]).root →
      [leafA, leafB, leafC] = [leafA, leafB, leafC, leafC]) ↔
      [leafA, leafB, leafC] = [leafA, leafB, leafC, leafC] ∨
        ¬ (threeLeavesAuditing.StandsFor [leafA, leafB, leafC] [leafA, leafB, leafC, leafC] ∨
          threeLeavesAuditing.StandsFor [leafA, leafB, leafC, leafC] [leafA, leafB, leafC]) :=
  threeLeavesAuditing.merkle_root_commits_iff threeLeavesSha_length _ _ threeLeaves_hex doubledLeaves_hex
    threeLeaves_collisionFree

end GenesisAgents
