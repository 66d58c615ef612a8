import GenesisAgents.KnowledgeBackbone

/-! What `knowledge_backbone.resolve` makes of any rows for any principal: which copies it returns, that
it loses no document, and which classification it prefers. -/

namespace GenesisAgents

open Value KeyedGroups

def accessible (principal : Option String) (row : KbRow) : Bool :=
  isSet principal && hasMatchingAccess (row.get "permissions_snapshot") (principal.getD "")

/-- Ids and hash are hashable, and the score is a number. -/
structure Resolvable (S : RetrievalSettings) (row : KbRow) : Prop where
  identified : (identity row).isSome = true
  hashed : (contentKey row).isSome = true
  scored : (S.score row).isSome = true

def ResolvableFor (S : RetrievalSettings) (rows : List KbRow) (principal : Option String) : Prop :=
  ∀ row ∈ rows, accessible principal row = true → Resolvable S row

theorem filterByPermission_eq (rows : List KbRow) (principal : Option String) :
    filterByPermission rows principal = rows.filter (accessible principal) := by
  rw [filterByPermission]
  by_cases known : isSet principal = true
  · rw [if_pos known]
    apply List.filter_congr
    intro row _
    rw [accessible, known, Bool.true_and]
  · rw [if_neg known, eq_comm, List.filter_eq_nil_iff]
    intro row _
    simp [accessible, known]

section

variable (S : RetrievalSettings)

theorem champion_chooses : Chooses (champion S.score PyFloat.gt) where
  mem := champion_mem S.score PyFloat.gt
  total := champion_isSome S.score PyFloat.gt
  single _ := rfl

theorem preferred_mem (group : List KbRow) (row : KbRow) (member : row ∈ preferred group) : row ∈ group := by
  rw [preferred] at member
  split at member
  · exact member
  · exact (List.mem_filter.mp member).1

theorem preferred_chooses : Chooses fun group => champion S.score PyFloat.gt (preferred group) where
  mem group row chosen := preferred_mem group row (champion_mem S.score PyFloat.gt _ row chosen)
  total group some_row := champion_isSome S.score PyFloat.gt _ (preferred_ne_nil group some_row)
  single row := by
    rw [preferred_singleton]
    rfl

def keptCopies (rows : List KbRow) : List KbRow := picked identity (champion S.score PyFloat.gt) rows

def shownCopies (rows : List KbRow) : List KbRow :=
  picked contentKey (fun group => champion S.score PyFloat.gt (preferred group)) rows

theorem mem_keptCopies (rows : List KbRow) (row : KbRow) (member : row ∈ keptCopies S rows) : row ∈ rows :=
  mem_picked (champion_chooses S) rows row member

theorem mem_shownCopies (rows : List KbRow) (row : KbRow) (member : row ∈ shownCopies S rows) : row ∈ rows :=
  mem_picked (preferred_chooses S) rows row member

theorem dedupByIdentity_kept (rows : List KbRow) (resolvable : ∀ row ∈ rows, Resolvable S row) :
    S.dedupByIdentity rows = some (keptCopies S rows) := by
  have answers : (S.dedupByIdentity rows).isSome = true := by
    rw [dedupByIdentity_isSome]
    constructor
    · intro row member
      exact (resolvable row member).identified
    · intro k _ _ row member
      exact (resolvable row ((mem_group identity rows row k).mp member).1).scored
  rcases Option.isSome_iff_exists.mp answers with ⟨best, done⟩
  rw [done, dedupByIdentity_eq S rows best done]
  rfl

theorem dedupByContentHash_shown (rows : List KbRow) (resolvable : ∀ row ∈ rows, Resolvable S row) :
    S.dedupByContentHash rows = some (shownCopies S rows) := by
  have answers : (S.dedupByContentHash rows).isSome = true := by
    rw [dedupByContentHash_isSome]
    constructor
    · intro row member
      exact (resolvable row member).hashed
    · intro k _ _ row member
      have inside := preferred_mem _ row member
      exact (resolvable row ((mem_group contentKey rows row k).mp inside).1).scored
  rcases Option.isSome_iff_exists.mp answers with ⟨best, done⟩
  rw [done, dedupByContentHash_eq S rows best done]
  rfl

section

variable (rows : List KbRow) (principal : Option String) (resolvable : ResolvableFor S rows principal)

include resolvable

theorem accessible_resolvable : ∀ row ∈ rows.filter (accessible principal), Resolvable S row := by
  intro row member
  have both := List.mem_filter.mp member
  exact resolvable row both.1 both.2

theorem kept_resolvable : ∀ row ∈ keptCopies S (rows.filter (accessible principal)), Resolvable S row := by
  intro row member
  exact accessible_resolvable S rows principal resolvable row (mem_keptCopies S _ row member)

theorem resolve_eq :
    S.resolve rows principal = some (shownCopies S (keptCopies S (rows.filter (accessible principal)))) := by
  rw [RetrievalSettings.resolve, filterByPermission_eq,
    dedupByIdentity_kept S _ (accessible_resolvable S rows principal resolvable), Option.bind_some,
    dedupByContentHash_shown S _ (kept_resolvable S rows principal resolvable)]

end

theorem shown_identities (rows : List KbRow) (distinct : (rows.map identity).Nodup) :
    ((shownCopies S rows).map identity).Nodup := by
  have picks : ((shownCopies S rows).map contentKey).Nodup := picked_distinct (preferred_chooses S) rows
  have contents := picks.of_map
  apply contents.map_on
  intro row member other inside same
  exact List.inj_on_of_nodup_map distinct (mem_shownCopies S rows row member)
    (mem_shownCopies S rows other inside) same

theorem kept_of_distinct (rows : List KbRow) (resolvable : ∀ row ∈ rows, Resolvable S row)
    (distinct : (rows.map identity).Nodup) : keptCopies S rows = rows :=
  picked_of_distinct (champion_chooses S) rows (fun row member => (resolvable row member).identified) distinct

theorem shown_of_distinct (rows : List KbRow) (resolvable : ∀ row ∈ rows, Resolvable S row)
    (distinct : (rows.map contentKey).Nodup) : shownCopies S rows = rows :=
  picked_of_distinct (preferred_chooses S) rows (fun row member => (resolvable row member).hashed) distinct

/-- What `resolve` returns: rows of the input that the principal may see, no two with one identity or one
content, such that every row the principal may see is represented, and nothing else plays a part. -/
structure Resolution (rows : List KbRow) (principal : Option String) (out : List KbRow) : Prop where
  sound : ∀ row ∈ out, row ∈ rows ∧ accessible principal row = true
  apart : out.Pairwise fun row other => identity row ≠ identity other ∧ contentKey row ≠ contentKey other
  lossless : ∀ row ∈ rows, accessible principal row = true →
    ∃ copy ∈ rows, accessible principal copy = true ∧ identity copy = identity row ∧
      ∃ shown ∈ out, contentKey shown = contentKey copy
  idempotent : S.resolve out principal = some out
  undisturbed : ∀ others : List KbRow,
    others.filter (accessible principal) = rows.filter (accessible principal) →
      S.resolve others principal = some out

theorem resolve_sound_and_lossless (rows : List KbRow) (principal : Option String)
    (resolvable : ResolvableFor S rows principal) :
    ∃ out, S.resolve rows principal = some out ∧ Resolution S rows principal out := by
  let seen := rows.filter (accessible principal)
  have seen_resolvable : ∀ row ∈ seen, Resolvable S row := accessible_resolvable S rows principal resolvable
  have identities := shown_identities S (keptCopies S seen) (picked_distinct (champion_chooses S) seen)
  have contents : ((shownCopies S (keptCopies S seen)).map contentKey).Nodup :=
    picked_distinct (preferred_chooses S) (keptCopies S seen)
  have out_seen : ∀ row ∈ shownCopies S (keptCopies S seen), row ∈ seen := by
    intro row member
    exact mem_keptCopies S seen row (mem_shownCopies S _ row member)
  refine ⟨_, resolve_eq S rows principal resolvable, ?_, ?_, ?_, ?_, ?_⟩
  · intro row member
    exact List.mem_filter.mp (out_seen row member)
  · exact (List.pairwise_map.mp identities).and (List.pairwise_map.mp contents)
  · intro row member visible
    have inside : row ∈ seen := List.mem_filter.mpr ⟨member, visible⟩
    rcases picked_covers (champion_chooses S) seen row inside (seen_resolvable row inside).identified with
      ⟨copy, kept, sameIdentity⟩
    have copy_seen := mem_keptCopies S seen copy kept
    rcases picked_covers (preferred_chooses S) (keptCopies S seen) copy kept (seen_resolvable copy copy_seen).hashed
      with ⟨shown, there, sameContent⟩
    have both := List.mem_filter.mp copy_seen
    exact ⟨copy, both.1, both.2, sameIdentity, shown, there, sameContent⟩
  · have visible : (shownCopies S (keptCopies S seen)).filter (accessible principal) =
        shownCopies S (keptCopies S seen) := by
      apply List.filter_eq_self.mpr
      intro row member
      exact (List.mem_filter.mp (out_seen row member)).2
    have out_resolvable : ∀ row ∈ shownCopies S (keptCopies S seen), Resolvable S row := by
      intro row member
      exact seen_resolvable row (out_seen row member)
    rw [resolve_eq S _ principal fun row member _ => out_resolvable row member, visible,
      kept_of_distinct S _ out_resolvable identities, shown_of_distinct S _ out_resolvable contents]
  · intro others same
    have others_resolvable : ResolvableFor S others principal := by
      intro row member visible
      apply seen_resolvable
      rw [show seen = others.filter (accessible principal) from same.symm]
      exact List.mem_filter.mpr ⟨member, visible⟩
    rw [resolve_eq S others principal others_resolvable, same]

/-- A canonical copy that the first pass keeps wins its content. -/
theorem canonical_precedence (rows : List KbRow) (principal : Option String)
    (resolvable : ResolvableFor S rows principal) (kept : List KbRow)
    (first : S.dedupByIdentity (filterByPermission rows principal) = some kept) (row : KbRow)
    (member : row ∈ kept) (canonical : isCanonical row = true) :
    ∃ out, S.resolve rows principal = some out ∧
      ∀ other ∈ out, contentKey other = contentKey row → isCanonical other = true := by
  rw [filterByPermission_eq, dedupByIdentity_kept S _ (accessible_resolvable S rows principal resolvable)] at first
  obtain rfl := Option.some.inj first
  refine ⟨_, resolve_eq S rows principal resolvable, ?_⟩
  intro other shown same
  rcases List.mem_filterMap.mp shown with ⟨k, _, chosen⟩
  have own := ((mem_group contentKey _ other k).mp ((preferred_chooses S).mem _ other chosen)).2
  have rival : row ∈ (group contentKey k (keptCopies S (rows.filter (accessible principal)))).filter isCanonical :=
    List.mem_filter.mpr ⟨(mem_group contentKey _ row k).mpr ⟨member, same ▸ own⟩, canonical⟩
  have winner := champion_mem S.score PyFloat.gt _ other chosen
  have several : ((group contentKey k (keptCopies S (rows.filter (accessible principal)))).filter
      isCanonical).isEmpty = false := List.isEmpty_eq_false_iff.mpr (List.ne_nil_of_mem rival)
  rw [preferred, several] at winner
  exact (List.mem_filter.mp winner).2

end

/-! A canonical copy and a controller copy under one identity. -/

def lowScore : PyFloat := ⟨"0.1", some (1 / 10), floatText_plain "0.1" rfl⟩

def highScore : PyFloat := ⟨"0.9", some (9 / 10), floatText_plain "0.9" rfl⟩

def copyOf (classification : String) (score : PyFloat) : KbRow :=
  [("source_account", str classification), ("source_classification", str classification),
    ("drive_id", str "drive-1"), ("file_id", str "file-1"), ("content_hash", str "9f86d081"),
    ("permissions_snapshot", dict [("principals", list [str "user:1"])]), ("score", .float score)]

def twoCopies : List KbRow := [copyOf "canonical" lowScore, copyOf "controller" highScore]

theorem twoCopies_resolvable : ResolvableFor plainSettings twoCopies (some "user:1") := by
  intro row member _
  rcases List.mem_cons.mp member with rfl | member
  · exact ⟨rfl, rfl, rfl⟩
  · rw [List.mem_singleton.mp member]
    exact ⟨rfl, rfl, rfl⟩

theorem twoCopies_visible : twoCopies.filter (accessible (some "user:1")) = twoCopies := by
  apply List.filter_eq_self.mpr
  intro row member
  rcases List.mem_cons.mp member with rfl | member
  · simp [accessible, hasMatchingAccess, copyOf, KbRow.get, Value.get, getD, get?, List.lookup_cons, isSet, pyEq_str]
  · rw [List.mem_singleton.mp member]
    simp [accessible, hasMatchingAccess, copyOf, KbRow.get, Value.get, getD, get?, List.lookup_cons, isSet, pyEq_str]

theorem controller_copy_kept : keptCopies plainSettings twoCopies = [copyOf "controller" highScore] := by
  have one : keys identity twoCopies = [(.text "drive-1", .text "file-1")] := by decide
  have both : group identity (.text "drive-1", .text "file-1") twoCopies = twoCopies := by
    apply List.filter_eq_self.mpr
    decide
  have higher : beats plainSettings.score PyFloat.gt (copyOf "controller" highScore)
      (copyOf "canonical" lowScore) = true := by decide +kernel
  have best : champion plainSettings.score PyFloat.gt twoCopies = some (copyOf "controller" highScore) := by
    rw [twoCopies, champion, List.foldl_cons, List.foldl_nil, if_pos higher]
  rw [keptCopies, picked, one, List.filterMap_cons, both, best]
  rfl

theorem controller_copy_returned :
    plainSettings.resolve twoCopies (some "user:1") = some [copyOf "controller" highScore] := by
  have alone : shownCopies plainSettings [copyOf "controller" highScore] = [copyOf "controller" highScore] := by
    apply shown_of_distinct
    · intro row member
      apply twoCopies_resolvable row (List.mem_cons_of_mem _ member)
      rw [List.mem_singleton.mp member]
      exact (List.filter_eq_self.mp twoCopies_visible) _ (by simp [twoCopies])
    · exact List.nodup_singleton _
  rw [resolve_eq plainSettings twoCopies _ twoCopies_resolvable, twoCopies_visible, controller_copy_kept, alone]

theorem canonical_copy_loses :
    ¬ ∀ (S : RetrievalSettings) (rows : List KbRow) (principal : Option String),
      ResolvableFor S rows principal → ∀ row ∈ rows, accessible principal row = true → isCanonical row = true →
        ∃ out, S.resolve rows principal = some out ∧
          ∀ other ∈ out, contentKey other = contentKey row → isCanonical other = true := by
  intro precedence
  have visible := List.filter_eq_self.mp twoCopies_visible
  rcases precedence plainSettings twoCopies (some "user:1") twoCopies_resolvable (copyOf "canonical" lowScore)
    (by simp [twoCopies]) (visible _ (by simp [twoCopies])) ((pyEq_str _ _).mpr rfl) with ⟨out, resolved, wins⟩
  rw [controller_copy_returned, Option.some.injEq] at resolved
  have canonical := wins (copyOf "controller" highScore) (by simp [← resolved]) rfl
  have classification : KbRow.get (copyOf "controller" highScore) "source_classification" = str "controller" := rfl
  rw [isCanonical, classification, pyEq_str] at canonical
  exact absurd (Value.str.inj canonical) (by decide)

theorem two_copies_resolved :
    ∃ out, plainSettings.resolve twoCopies (some "user:1") = some out ∧
      Resolution plainSettings twoCopies (some "user:1") out :=
  resolve_sound_and_lossless plainSettings twoCopies (some "user:1") twoCopies_resolvable

/-- A canonical copy under an identity of its own. -/
def canonicalElsewhere : KbRow :=
  [("source_account", str "canonical"), ("source_classification", str "canonical"),
    ("drive_id", str "drive-2"), ("file_id", str "file-2"), ("content_hash", str "9f86d081"),
    ("permissions_snapshot", dict [("public", Value.bool true)]), ("score", .float lowScore)]

def twoIdentities : List KbRow := [copyOf "controller" highScore, canonicalElsewhere]

theorem twoIdentities_resolvable : ∀ row ∈ twoIdentities, Resolvable plainSettings row := by
  intro row member
  rcases List.mem_cons.mp member with rfl | member
  · exact ⟨rfl, rfl, rfl⟩
  · rw [List.mem_singleton.mp member]
    exact ⟨rfl, rfl, rfl⟩

theorem twoIdentities_kept :
    plainSettings.dedupByIdentity (filterByPermission twoIdentities (some "user:1")) = some twoIdentities := by
  have visible : filterByPermission twoIdentities (some "user:1") = twoIdentities := by
    rw [filterByPermission_eq]
    apply List.filter_eq_self.mpr
    intro row member
    rcases List.mem_cons.mp member with rfl | member
    · exact (List.filter_eq_self.mp twoCopies_visible) _ (by simp [twoCopies])
    · rw [List.mem_singleton.mp member]
      rfl
  rw [visible, dedupByIdentity_kept plainSettings _ twoIdentities_resolvable]
  exact congrArg some (kept_of_distinct plainSettings _ twoIdentities_resolvable (by decide))

theorem canonical_elsewhere_wins :
    ∃ out, plainSettings.resolve twoIdentities (some "user:1") = some out ∧
      ∀ other ∈ out, contentKey other = contentKey canonicalElsewhere → isCanonical other = true :=
  canonical_precedence plainSettings twoIdentities (some "user:1")
    (fun row member _ => twoIdentities_resolvable row member) twoIdentities twoIdentities_kept canonicalElsewhere
    (List.mem_cons_of_mem _ (List.mem_singleton_self _)) ((pyEq_str _ _).mpr rfl)

end GenesisAgents
