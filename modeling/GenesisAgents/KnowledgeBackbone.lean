import GenesisAgents.Library.KeyedGroups
import GenesisAgents.Retrieval

/-! `POST /retrieval/query` over its two backends: the vault, and the knowledge backbone with
`knowledge_backbone.resolve` behind it. `none` stands for an exception. -/

namespace GenesisAgents

open Value KeyedGroups

abbrev KbRow := List (String × Value)

namespace KbRow

/-- `row.get(key)` -/
def get (row : KbRow) (key : String) : Value := Value.get (dict row) key

def getD (row : KbRow) (key : String) (default : Value) : Value := Value.getD (dict row) key default

/-- `row[key]` -/
def get? (row : KbRow) (key : String) : Option Value := Value.get? (dict row) key

end KbRow

structure RetrievalSettings where
  unicode : Unicode
  /-- The string case of `_sanitize`; `none` when `urlsplit` raises. -/
  redactText : String → Option String
  /-- `float(s)` -/
  floatOfText : String → Option PyFloat
  /-- `float(n)`; `none` is an `OverflowError`. -/
  floatOfInt : Int → Option PyFloat
  /-- `_min_score()` -/
  minScore : PyFloat
  /-- The characters that stand for lone surrogates, which `encode` refuses. -/
  lone : Char → Bool

def floatZero : PyFloat := ⟨"0.0", some 0, zero_plain⟩

/-- `x > y` -/
def PyFloat.gt (x y : PyFloat) : Bool :=
  match x.exact, y.exact with
  | some a, some b => b < a
  | none, some _ => x.repr == "inf"
  | some _, none => y.repr == "-inf"
  | none, none => x.repr == "inf" && y.repr == "-inf"

/-- `x >= y`; a nan compares with nothing. -/
def PyFloat.ge (x y : PyFloat) : Bool :=
  x.gt y || match x.exact, y.exact with
    | some a, some b => a = b
    | none, none => x.repr == y.repr && (x.repr == "inf" || x.repr == "-inf")
    | _, _ => false

namespace RetrievalSettings

variable (S : RetrievalSettings)

/-- `float(v)` -/
def float : Value → Option PyFloat
  | .float x => some x
  | int n => S.floatOfInt n
  | .bool b => S.floatOfInt (if b then 1 else 0)
  | str s => S.floatOfText s
  | _ => none

/-- `float(row.get("score", 0.0))` -/
def score (row : KbRow) : Option PyFloat := S.float (row.getD "score" (.float floatZero))

/-- `float(row.get("score", 0.0)) >= min_score`, of a row with a score -/
def reaches (row : KbRow) : Bool := (S.score row).elim false fun score => score.ge S.minScore

/-- `[row for row in rows if float(row.get("score", 0.0)) >= min_score]` -/
def scored (rows : List KbRow) : Option (List KbRow) :=
  if rows.all fun row => (S.score row).isSome then some (rows.filter S.reaches) else none

/-- `str(v)`, which refuses integers of too many digits. -/
def strOf (v : Value) : Option String := if v.writable then some (v.text S.unicode) else none

/-- `_safe_content` -/
def safeContent (v : Value) : Option String := do
  let text ← S.strOf (v.orElse (str ""))
  let redacted ← S.redactText text
  some (clip 4000 redacted)

/-- `_isoformat`; a date is an object carried as its `isoformat()`. -/
def isoformat : Value → Option (Option String)
  | null => some none
  | object text => some (some text)
  | v => (S.strOf v).map some

end RetrievalSettings

/-! `knowledge_backbone.py` -/

/-- A value as the key of a dict: equal numbers are one key, whatever their types. -/
inductive DictKey where
  | none
  | text (s : String)
  | number (q : Rat)
  | special (repr : String)
  | other (text : String)
  deriving DecidableEq

/-- `hash(v)`; lists and dicts have none. -/
def dictKey : Value → Option DictKey
  | null => some .none
  | .bool b => some (.number (if b then 1 else 0))
  | int n => some (.number n)
  | .float x => some (x.exact.elim (.special x.repr) .number)
  | str s => some (.text s)
  | object text => some (.other text)
  | _ => none

/-- `_has_matching_access` -/
def hasMatchingAccess (snapshot : Value) (principal : String) : Bool :=
  match snapshot with
  | dict kvs =>
    (match (dict kvs).get "public" with
      | .bool true => true
      | _ => false) ||
    match (dict kvs).get "principals" with
    | list principals => principals.any fun other => pyEq (str principal) other
    | _ => false
  | _ => false

def filterByPermission (rows : List KbRow) (principal : Option String) : List KbRow :=
  if isSet principal then
    rows.filter fun row => hasMatchingAccess (row.get "permissions_snapshot") (principal.getD "")
  else []

/-- `(row.get("drive_id"), row.get("file_id"))` -/
def identity (row : KbRow) : Option (DictKey × DictKey) :=
  match dictKey (row.get "drive_id"), dictKey (row.get "file_id") with
  | some drive, some file => some (drive, file)
  | _, _ => none

def contentKey (row : KbRow) : Option DictKey := dictKey (row.get "content_hash")

def isCanonical (row : KbRow) : Bool := pyEq (row.get "source_classification") (str "canonical")

namespace RetrievalSettings

variable (S : RetrievalSettings)

/-- `_dedup_by_identity` -/
def dedupByIdentity (rows : List KbRow) : Option (List KbRow) :=
  (collect identity id (better S.score PyFloat.gt) rows).map fun table => table.map Prod.snd

def chooseCopy (group : List KbRow) : Option KbRow :=
  match group with
  | [row] => some row
  | _ =>
    let canonicalRows := group.filter isCanonical
    if canonicalRows.isEmpty then maxBy S.score PyFloat.gt group
    else maxBy S.score PyFloat.gt canonicalRows

/-- `_dedup_by_content_hash_with_precedence` -/
def dedupByContentHash (rows : List KbRow) : Option (List KbRow) :=
  match collect contentKey (fun row => [row]) (fun group row => some (group ++ [row])) rows with
  | none => none
  | some groups => groups.mapM fun entry => S.chooseCopy entry.2

/-- `resolve` -/
def resolve (rows : List KbRow) (principal : Option String) : Option (List KbRow) :=
  (S.dedupByIdentity (filterByPermission rows principal)).bind S.dedupByContentHash

end RetrievalSettings

inductive ChunkSource where
  | vault | knowledgeBackbone
  deriving DecidableEq

/-- `RetrievalChunk` -/
structure RetrievalChunk where
  chunkId : String
  contentSha256 : String
  citation : String
  entity : Option String
  type : Option String
  status : Option String
  updated : Option String
  supersedes : List String
  score : PyFloat
  content : String
  source : ChunkSource
  sourceAccount : Option String
  sourceClassification : Option String
  driveId : Option String
  fileId : Option String
  originalPath : Option String
  modifiedAt : Option String
  contentHash : Option String
  stalenessFlag : Option Bool

/-- The texts of a chunk, those that are there. -/
def RetrievalChunk.texts (chunk : RetrievalChunk) : List String :=
  [chunk.chunkId, chunk.contentSha256, chunk.citation, chunk.content] ++ chunk.supersedes ++
    [chunk.entity, chunk.type, chunk.status, chunk.updated, chunk.sourceAccount, chunk.sourceClassification,
      chunk.driveId, chunk.fileId, chunk.originalPath, chunk.modifiedAt, chunk.contentHash].filterMap id

/-- `RetrievalQueryResponse` -/
structure RetrievalResponse where
  chunks : List RetrievalChunk
  indexUpdatedAt : Option String
  stale : Bool
  refusal : Bool
  reason : Option String
  degraded : Bool
  degradedReason : Option String
  isPartial : Bool
  partialReason : Option String

def refusalReason : String := "no vault answer found above threshold"

/-- `Optional[bool]` -/
def optionalBool : Value → Option (Option Bool)
  | null => some none
  | v => (optionalFlag v).map some

/-- `list(v or [])`, as the `list[str]` of the model -/
def textItems (v : Value) : Option (List String) :=
  match v.orElse (list []) with
  | list xs => xs.mapM requiredText
  | dict kvs => some (kvs.map Prod.fst)
  | str s => some (s.toList.map fun c => String.ofList [c])
  | _ => none

namespace RetrievalSettings

variable (S : RetrievalSettings)

/-- `_row_to_chunk` -/
def rowToChunk (row : KbRow) : Option RetrievalChunk := do
  let vaultPath ← (row.get? "vault_path").bind S.strOf
  let headingPath ← (row.get? "heading_path").bind S.strOf
  let chunkId ← (row.get? "chunk_id").bind requiredText
  let contentSha256 ← (row.get? "content_sha256").bind requiredText
  let entity ← optionalText (row.get "entity")
  let type ← optionalText (row.get "type")
  let status ← optionalText (row.get "status")
  let updated ← S.isoformat (row.get "updated")
  let supersedes ← textItems (row.get "supersedes")
  let score ← S.score row
  let content ← S.safeContent (row.get "content_text")
  some
    { chunkId := chunkId, contentSha256 := contentSha256
      citation := vaultPath ++ "#" ++ headingPath
      entity := entity, type := type, status := status
      updated := updated, supersedes := supersedes, score := score
      content := content, source := .vault, sourceAccount := none, sourceClassification := none
      driveId := none, fileId := none, originalPath := none, modifiedAt := none
      contentHash := none, stalenessFlag := none }

/-- `_row_to_kb_chunk` -/
def rowToKbChunk (row : KbRow) : Option RetrievalChunk := do
  let chunkId ← S.strOf (row.getD "chunk_id" (str ""))
  let contentSha256 ← S.strOf (row.getD "content_hash" (str ""))
  let citation ← S.strOf (row.getD "citation" (row.getD "original_path" (str "")))
  let score ← S.score row
  let sourceAccount ← optionalText (row.get "source_account")
  let sourceClassification ← optionalText (row.get "source_classification")
  let driveId ← optionalText (row.get "drive_id")
  let fileId ← optionalText (row.get "file_id")
  let originalPath ← optionalText (row.get "original_path")
  let modifiedAt ← S.isoformat (row.get "modified_at")
  let contentHash ← optionalText (row.get "content_hash")
  let stalenessFlag ← optionalBool (row.get "staleness_flag")
  let content ← S.safeContent ((row.get "content_text").orElse (row.get "content"))
  some
    { chunkId := chunkId, contentSha256 := contentSha256, citation := citation
      entity := none, type := none, status := none, updated := none, supersedes := []
      score := score, content := content, source := .knowledgeBackbone
      sourceAccount := sourceAccount, sourceClassification := sourceClassification
      driveId := driveId, fileId := fileId, originalPath := originalPath
      modifiedAt := modifiedAt, contentHash := contentHash
      stalenessFlag := stalenessFlag }

end RetrievalSettings

/-- `knowledge_backbone_store.query_chunks`: rows, or `none` when it raises. -/
abbrev Backbone := String → Int → Option (List KbRow)

structure BackboneAnswer where
  chunks : List RetrievalChunk
  isPartial : Bool
  partialReason : Option String

/-- What the vault store gives: an exception of one of its two calls, or its rows and what
`_compute_staleness` makes of the index's age, which may raise. -/
inductive VaultAnswer where
  | unavailable
  | rows (rows : List KbRow) (freshness : Option (Option String × Bool))

def degradedResponse (reason : String) : RetrievalResponse :=
  { chunks := [], indexUpdatedAt := none, stale := false, refusal := true
    reason := some refusalReason, degraded := true, degradedReason := some reason
    isPartial := false, partialReason := none }

namespace RetrievalSettings

variable (S : RetrievalSettings) (backbone : Backbone)

/-- `_query_knowledge_backbone` -/
def queryKnowledgeBackbone (query : String) (topK : Int) (principal : Option String) :
    Option BackboneAnswer :=
  if !isSet principal then some ⟨[], false, none⟩
  else match backbone query topK with
    | none => some ⟨[], true, some "knowledge_backbone unavailable"⟩
    | some rawRows => do
      let resolved ← S.resolve rawRows principal
      let scored ← S.scored resolved
      let chunks ← scored.mapM S.rowToKbChunk
      some ⟨chunks, false, none⟩

/-- `retrieval_query` -/
def retrievalQuery (vault : VaultAnswer) (request : RetrievalQuery) (principal : Principal) :
    Option RetrievalResponse :=
  match vault with
  | .unavailable => some (degradedResponse "assistant-tier PG unavailable")
  | .rows rows freshness => do
    let (indexUpdatedAt, stale) ← freshness
    let scored ← S.scored rows
    let vaultChunks ← scored.mapM S.rowToChunk
    let answer ← if request.domainHint = .vault then some ⟨[], false, none⟩
      else S.queryKnowledgeBackbone backbone request.query request.topK (some principal.principalId)
    let allChunks := vaultChunks ++ answer.chunks
    some
      { chunks := allChunks, indexUpdatedAt := indexUpdatedAt, stale := stale
        refusal := allChunks.isEmpty
        reason := if allChunks.isEmpty then some refusalReason else none, degraded := false
        degradedReason := none, isPartial := answer.isPartial
        partialReason := answer.partialReason }

def encodes (text : String) : Bool := text.toList.all fun c => !S.lone c

/-- `JSONResponse` renders with `allow_nan=False` and encodes what it has rendered. -/
def renders (chunk : RetrievalChunk) : Bool :=
  chunk.score.exact.isSome && chunk.texts.all S.encodes

/-- The answer of the route; what is not in the chunks are flags, dates and texts of its own. -/
def retrievalAnswer (vault : VaultAnswer) (request : RetrievalQuery) (principal : Principal) :
    Option RetrievalResponse :=
  (S.retrievalQuery backbone vault request principal).filter fun response =>
    response.chunks.all S.renders

end RetrievalSettings

def RetrievalResponse.vaultPart (response : RetrievalResponse) : List RetrievalChunk × Bool × Bool :=
  (response.chunks.filter fun chunk => chunk.source = .vault, response.degraded, response.stale)

/-- The backbone does not raise, and the route answers for the vault as if it had no rows. -/
structure VaultUnharmed (S : RetrievalSettings) (backbone : Backbone) (vault : VaultAnswer)
    (request : RetrievalQuery) (principal : Principal) : Prop where
  answers : (S.queryKnowledgeBackbone backbone request.query request.topK
    (some principal.principalId)).isSome = true
  same : (S.retrievalAnswer backbone vault request principal).map RetrievalResponse.vaultPart =
    (S.retrievalAnswer (fun _ _ => some []) vault request principal).map RetrievalResponse.vaultPart

/-- The canonical copies of one content, or all of them when none is canonical. -/
def preferred (group : List KbRow) : List KbRow :=
  let canonicalRows := group.filter isCanonical
  if canonicalRows.isEmpty then group else canonicalRows

/-- What `_row_to_kb_chunk` needs of a row with a score. -/
structure Publishable (S : RetrievalSettings) (row : KbRow) : Prop where
  /-- No integer in them has too many digits. -/
  written : ∀ v ∈ [row.getD "chunk_id" (str ""), row.getD "citation" (row.getD "original_path" (str "")),
    row.get "modified_at"], v.writable = true
  texts : ∀ key ∈ ["source_account", "source_classification", "drive_id", "file_id",
    "original_path", "content_hash"], (optionalText (row.get key)).isSome = true
  flag : (optionalBool (row.get "staleness_flag")).isSome = true
  content : (S.safeContent ((row.get "content_text").orElse (row.get "content"))).isSome = true

namespace RetrievalSettings

variable (S : RetrievalSettings)

def kept (rows : List KbRow) (principal : String) : List KbRow :=
  winners S.score PyFloat.gt identity (filterByPermission rows (some principal))

def shown (kept : List KbRow) : List KbRow :=
  (keys contentKey kept).filterMap fun k =>
    champion S.score PyFloat.gt (preferred (group contentKey k kept))

end RetrievalSettings

structure RowsReadable (S : RetrievalSettings) (rows : List KbRow) (principal : String) : Prop where
  /-- `drive_id` and `file_id` are hashable. -/
  identities : ∀ row ∈ filterByPermission rows (some principal), (identity row).isSome = true
  /-- Rows of one identity have scores. -/
  rivals : ∀ k ∈ keys identity (filterByPermission rows (some principal)),
    2 ≤ (group identity k (filterByPermission rows (some principal))).length →
      ∀ row ∈ group identity k (filterByPermission rows (some principal)),
        (S.score row).isSome = true
  /-- `content_hash` is hashable. -/
  hashes : ∀ row ∈ S.kept rows principal, (contentKey row).isSome = true
  /-- The preferred copies of a content have scores. -/
  copies : ∀ k ∈ keys contentKey (S.kept rows principal),
    ∀ row ∈ preferred (group contentKey k (S.kept rows principal)), (S.score row).isSome = true
  publishable : ∀ row ∈ S.shown (S.kept rows principal), S.reaches row = true → Publishable S row

/-- The texts that `_row_to_kb_chunk` takes from a row. -/
def RetrievalSettings.rowTexts (S : RetrievalSettings) (row : KbRow) : List String :=
  [(row.getD "chunk_id" (str "")).text S.unicode, (row.getD "content_hash" (str "")).text S.unicode,
    (row.getD "citation" (row.getD "original_path" (str ""))).text S.unicode] ++
  [S.safeContent ((row.get "content_text").orElse (row.get "content")),
    (optionalText (row.get "source_account")).join, (optionalText (row.get "source_classification")).join,
    (optionalText (row.get "drive_id")).join, (optionalText (row.get "file_id")).join,
    (optionalText (row.get "original_path")).join, (S.isoformat (row.get "modified_at")).join,
    (optionalText (row.get "content_hash")).join].filterMap id

/-- The score is a number, and no text has a lone surrogate. -/
def RetrievalSettings.rendersRow (S : RetrievalSettings) (row : KbRow) : Bool :=
  ((S.score row).all fun score => score.exact.isSome) && (S.rowTexts row).all S.encodes

/-- There is nobody to ask for, the backbone raises, or its rows can be read. -/
def BackboneReadable (S : RetrievalSettings) (backbone : Backbone) (request : RetrievalQuery)
    (principal : Principal) : Prop :=
  principal.principalId ≠ "" → ∀ rows, backbone request.query request.topK = some rows →
    RowsReadable S rows principal.principalId

/-- There is nobody to ask for, the backbone raises, or the rows that are shown have finite scores and no
lone surrogates. -/
def BackboneRenders (S : RetrievalSettings) (backbone : Backbone) (request : RetrievalQuery)
    (principal : Principal) : Prop :=
  principal.principalId ≠ "" → ∀ rows, backbone request.query request.topK = some rows →
    ∀ row ∈ S.shown (S.kept rows principal.principalId), S.reaches row = true → S.rendersRow row = true

def VaultRenders (S : RetrievalSettings) : VaultAnswer → Prop
  | .unavailable => False
  | .rows rows freshness => freshness.isSome = true ∧ (∀ row ∈ rows, (S.score row).isSome = true) ∧
      ∀ row ∈ rows, S.reaches row = true → ∃ chunk, S.rowToChunk row = some chunk ∧ S.renders chunk = true

section

variable (S : RetrievalSettings)

theorem preferred_ne_nil (group : List KbRow) (some_row : group ≠ []) : preferred group ≠ [] := by
  rw [preferred]
  split
  · exact some_row
  · rename_i canonical
    simpa using canonical

theorem preferred_singleton (row : KbRow) : preferred [row] = [row] := by
  rw [preferred, List.filter_singleton]
  cases isCanonical row <;> rfl

theorem chooseCopy_eq (group : List KbRow) (several : 2 ≤ group.length) :
    S.chooseCopy group = maxBy S.score PyFloat.gt (preferred group) := by
  rcases group with _ | ⟨head, _ | ⟨second, rest⟩⟩
  · simp at several
  · simp at several
  · rw [RetrievalSettings.chooseCopy, preferred]
    · split <;> rfl
    · simp

theorem maxBy_isSome (rows : List KbRow) (some_row : rows ≠ []) :
    (maxBy S.score PyFloat.gt rows).isSome = true ↔ ∀ row ∈ rows, (S.score row).isSome = true := by
  rw [maxBy, ← List.all_eq_true]
  split
  · rename_i scores
    exact iff_of_true (champion_isSome S.score PyFloat.gt rows some_row) scores
  · rename_i missing
    exact iff_of_false (by simp) missing

theorem chooseCopy_isSome (group : List KbRow) (some_row : group ≠ []) :
    (S.chooseCopy group).isSome = true ↔
      (2 ≤ group.length → ∀ row ∈ preferred group, (S.score row).isSome = true) := by
  rcases group with _ | ⟨head, _ | ⟨second, rest⟩⟩
  · contradiction
  · exact iff_of_true rfl fun two => absurd two (by simp)
  · have several : 2 ≤ (head :: second :: rest).length := by simp
    rw [chooseCopy_eq S _ several, maxBy_isSome S _ (preferred_ne_nil _ some_row)]
    exact ⟨fun scores _ => scores, fun scores => scores several⟩

theorem chooseCopy_champion (group : List KbRow) (best : KbRow)
    (chosen : S.chooseCopy group = some best) :
    champion S.score PyFloat.gt (preferred group) = some best := by
  rcases group with _ | ⟨head, _ | ⟨second, rest⟩⟩
  · contradiction
  · rw [preferred_singleton]
    exact chosen
  · rw [chooseCopy_eq S _ (by simp), maxBy] at chosen
    split at chosen
    · exact chosen
    · contradiction

/-! Each pass succeeds under its condition, and returns those rows. -/

theorem dedupByIdentity_isSome (rows : List KbRow) :
    (S.dedupByIdentity rows).isSome = true ↔
      (∀ row ∈ rows, (identity row).isSome = true) ∧
        ∀ k ∈ keys identity rows, 2 ≤ (group identity k rows).length →
          ∀ row ∈ group identity k rows, (S.score row).isSome = true := by
  rw [RetrievalSettings.dedupByIdentity, Option.isSome_map, collect_better_isSome]

theorem dedupByIdentity_eq (rows best : List KbRow) (done : S.dedupByIdentity rows = some best) :
    best = winners S.score PyFloat.gt identity rows := by
  obtain ⟨table, collected, rfl⟩ := Option.map_eq_some_iff.mp done
  exact collect_better S.score PyFloat.gt identity rows table collected

theorem dedupByContentHash_unfold (rows : List KbRow) :
    S.dedupByContentHash rows = if rows.all fun row => (contentKey row).isSome then
      (keys contentKey rows).mapM fun k => S.chooseCopy (group contentKey k rows) else none := by
  rw [RetrievalSettings.dedupByContentHash, collect_groups]
  split
  · rename_i none_
    split at none_
    · contradiction
    · rename_i unkeyed
      rw [if_neg unkeyed]
  · rename_i groups some_
    split at some_
    · rename_i keyed
      obtain rfl := Option.some.inj some_
      rw [if_pos keyed, List.mapM_map]
      rfl
    · contradiction

theorem dedupByContentHash_isSome (rows : List KbRow) :
    (S.dedupByContentHash rows).isSome = true ↔
      (∀ row ∈ rows, (contentKey row).isSome = true) ∧
        ∀ k ∈ keys contentKey rows, 2 ≤ (group contentKey k rows).length →
          ∀ row ∈ preferred (group contentKey k rows), (S.score row).isSome = true := by
  rw [dedupByContentHash_unfold]
  split
  · rename_i keyed
    rw [mapM_isSome, and_iff_right (List.all_eq_true.mp keyed)]
    apply forall₂_congr
    intro k present
    exact chooseCopy_isSome S _ (group_ne_nil contentKey rows k present)
  · rename_i unkeyed
    exact iff_of_false (by simp) fun both => unkeyed (List.all_eq_true.mpr both.1)

theorem dedupByContentHash_eq (rows best : List KbRow)
    (done : S.dedupByContentHash rows = some best) : best = S.shown rows := by
  rw [dedupByContentHash_unfold] at done
  split at done
  · exact mapM_eq_filterMap _ _ _ (fun k _ => chooseCopy_champion S _) best done
  · contradiction

/-- Scores for every comparison and for every row shown: the preferred copies have them. -/
theorem copies_scored_iff (rows : List KbRow) :
    (∀ k ∈ keys contentKey rows, ∀ row ∈ preferred (group contentKey k rows),
        (S.score row).isSome = true) ↔
      (∀ k ∈ keys contentKey rows, 2 ≤ (group contentKey k rows).length →
        ∀ row ∈ preferred (group contentKey k rows), (S.score row).isSome = true) ∧
      ∀ row ∈ S.shown rows, (S.score row).isSome = true := by
  constructor
  · intro scores
    refine ⟨fun k present _ => scores k present, fun row member => ?_⟩
    obtain ⟨k, present, best⟩ := List.mem_filterMap.mp member
    exact scores k present row (champion_mem S.score PyFloat.gt _ row best)
  · rintro ⟨compared, shown⟩ k present row member
    by_cases several : 2 ≤ (group contentKey k rows).length
    · exact compared k present several row member
    · obtain ⟨only, alone⟩ : ∃ only, group contentKey k rows = [only] := by
        apply List.length_eq_one_iff.mp
        have some_row := List.length_pos_iff.mpr (group_ne_nil contentKey rows k present)
        omega
      rw [alone, preferred_singleton] at member
      obtain rfl := List.mem_singleton.mp member
      apply shown
      refine List.mem_filterMap.mpr ⟨k, present, ?_⟩
      rw [alone, preferred_singleton]
      rfl

theorem scored_isSome (rows : List KbRow) :
    (S.scored rows).isSome = true ↔ ∀ row ∈ rows, (S.score row).isSome = true := by
  rw [RetrievalSettings.scored, ← List.all_eq_true]
  split
  · rename_i scores
    exact iff_of_true rfl scores
  · rename_i missing
    exact iff_of_false (by simp) missing

theorem scored_eq (rows out : List KbRow) (done : S.scored rows = some out) :
    out = rows.filter S.reaches := by
  rw [RetrievalSettings.scored] at done
  split at done
  · exact (Option.some.inj done).symm
  · contradiction

theorem bind_isSome {α β : Type} (x : Option α) (f : α → Option β) :
    (x.bind f).isSome = true ↔ x.isSome = true ∧ ∀ a, x = some a → (f a).isSome = true := by
  cases x <;> simp

theorem then_isSome {α β : Type} {x : Option α} {f : α → Option β} {rest : Prop}
    (later : ∀ a, (f a).isSome = true ↔ rest) :
    (x.bind f).isSome = true ↔ x.isSome = true ∧ rest := by
  cases x with
  | none => simp
  | some a => simp [later a]

theorem strOf_isSome (v : Value) : (S.strOf v).isSome = v.writable := by
  rw [RetrievalSettings.strOf]
  split
  · rename_i short
    rw [short]
    rfl
  · rename_i long
    rw [Bool.not_eq_true] at long
    rw [long]
    rfl

theorem isoformat_isSome (v : Value) : (S.isoformat v).isSome = v.writable := by
  cases v with
  | null => rfl
  | object text => rfl
  | _ => simp [RetrievalSettings.isoformat, strOf_isSome]

theorem optionalText_writable (v : Value) (text : (optionalText v).isSome = true) : v.writable = true := by
  cases v with
  | null => rfl
  | str s => rfl
  | _ => cases text

theorem getD_writable (row : KbRow) (key : String) (own : (row.get key).writable = true) :
    (row.getD key (str "")).writable = true := by
  rw [KbRow.get, Value.get, Value.getD] at own
  rw [KbRow.getD, Value.getD]
  cases found : Value.get? (dict row) key with
  | none => rfl
  | some v =>
    rw [found] at own
    exact own

theorem rowToKbChunk_isSome (row : KbRow) (scored : (S.score row).isSome = true) :
    (S.rowToKbChunk row).isSome = true ↔ Publishable S row := by
  obtain ⟨score, own⟩ := Option.isSome_iff_exists.mp scored
  have fields : (S.rowToKbChunk row).isSome = true ↔
      (S.strOf (row.getD "chunk_id" (str ""))).isSome = true ∧
      (S.strOf (row.getD "content_hash" (str ""))).isSome = true ∧
      (S.strOf (row.getD "citation" (row.getD "original_path" (str "")))).isSome = true ∧
      (optionalText (row.get "source_account")).isSome = true ∧
      (optionalText (row.get "source_classification")).isSome = true ∧
      (optionalText (row.get "drive_id")).isSome = true ∧
      (optionalText (row.get "file_id")).isSome = true ∧
      (optionalText (row.get "original_path")).isSome = true ∧
      (S.isoformat (row.get "modified_at")).isSome = true ∧
      (optionalText (row.get "content_hash")).isSome = true ∧
      (optionalBool (row.get "staleness_flag")).isSome = true ∧
      (S.safeContent ((row.get "content_text").orElse (row.get "content"))).isSome = true := by
    rw [RetrievalSettings.rowToKbChunk, own]
    simp only [Option.bind_eq_bind, Option.bind_some]
    refine then_isSome fun _ => then_isSome fun _ => then_isSome fun _ => then_isSome fun _ =>
      then_isSome fun _ => then_isSome fun _ => then_isSome fun _ => then_isSome fun _ =>
      then_isSome fun _ => then_isSome fun _ => then_isSome fun _ => ?_
    exact (then_isSome fun _ => iff_true_intro rfl).trans (and_iff_left trivial)
  rw [fields, strOf_isSome, strOf_isSome, strOf_isSome, isoformat_isSome]
  constructor
  · rintro ⟨id, -, citation, account, classification, drive, file, path, modified, hash, flag, content⟩
    refine ⟨?_, ?_, flag, content⟩
    · simp only [List.forall_mem_cons, List.not_mem_nil, false_imp_iff, implies_true, and_true]
      exact ⟨id, citation, modified⟩
    · simp only [List.forall_mem_cons, List.not_mem_nil, false_imp_iff, implies_true, and_true]
      exact ⟨account, classification, drive, file, path, hash⟩
  · rintro ⟨written, texts, flag, content⟩
    simp only [List.forall_mem_cons, List.not_mem_nil, false_imp_iff, implies_true, and_true] at written texts
    obtain ⟨id, citation, modified⟩ := written
    obtain ⟨account, classification, drive, file, path, hash⟩ := texts
    have sha := getD_writable row "content_hash" (optionalText_writable _ hash)
    exact ⟨id, sha, citation, account, classification, drive, file, path, modified, hash, flag, content⟩

/-- The backbone's rows are answered exactly when they can be read. -/
theorem rows_answered_iff (rows : List KbRow) (principal : String) :
    ((S.resolve rows (some principal)).bind fun resolved =>
      (S.scored resolved).bind fun scored =>
        (scored.mapM S.rowToKbChunk).bind fun chunks =>
          some (BackboneAnswer.mk chunks false none)).isSome = true ↔
      RowsReadable S rows principal := by
  let visible := filterByPermission rows (some principal)
  -- the second pass, the scores and the chunks, for the rows that the first pass keeps
  have later (kept : List KbRow) (first : S.dedupByIdentity visible = some kept) :
      ((S.dedupByContentHash kept).bind fun resolved =>
        (S.scored resolved).bind fun scored =>
          (scored.mapM S.rowToKbChunk).bind fun chunks =>
            some (BackboneAnswer.mk chunks false none)).isSome = true ↔
        (∀ row ∈ kept, (contentKey row).isSome = true) ∧
        (∀ k ∈ keys contentKey kept, ∀ row ∈ preferred (group contentKey k kept),
          (S.score row).isSome = true) ∧
        ∀ row ∈ S.shown kept, S.reaches row = true → Publishable S row := by
    rw [bind_isSome, dedupByContentHash_isSome, and_assoc]
    apply and_congr_right
    intro hashes
    rw [copies_scored_iff, and_assoc]
    apply and_congr_right
    intro compared
    have second : S.dedupByContentHash kept = some (S.shown kept) := by
      obtain ⟨resolved, done⟩ := Option.isSome_iff_exists.mp
        ((dedupByContentHash_isSome S kept).mpr ⟨hashes, compared⟩)
      rw [done, dedupByContentHash_eq S kept resolved done]
    rw [second]
    simp only [Option.some.injEq, forall_eq']
    rw [bind_isSome, scored_isSome]
    apply and_congr_right
    intro scores
    have third : S.scored (S.shown kept) = some ((S.shown kept).filter S.reaches) := by
      obtain ⟨out, done⟩ := Option.isSome_iff_exists.mp ((scored_isSome S _).mpr scores)
      rw [done, scored_eq S _ out done]
    rw [third]
    simp only [Option.some.injEq, forall_eq']
    rw [bind_isSome, mapM_isSome]
    simp only [Option.isSome_some, implies_true, and_true, List.mem_filter, and_imp]
    apply forall₂_congr
    intro row member
    exact imp_congr_right fun _ => rowToKbChunk_isSome S row (scores row member)
  rw [RetrievalSettings.resolve, Option.bind_assoc, bind_isSome, dedupByIdentity_isSome]
  constructor
  · rintro ⟨⟨identities, rivals⟩, rest⟩
    obtain ⟨kept, first⟩ := Option.isSome_iff_exists.mp
      ((dedupByIdentity_isSome S visible).mpr ⟨identities, rivals⟩)
    obtain ⟨hashes, copies, publishable⟩ := (later kept first).mp (rest kept first)
    obtain rfl := dedupByIdentity_eq S visible kept first
    exact ⟨identities, rivals, hashes, copies, publishable⟩
  · rintro ⟨identities, rivals, hashes, copies, publishable⟩
    refine ⟨⟨identities, rivals⟩, fun kept first => (later kept first).mpr ?_⟩
    obtain rfl := dedupByIdentity_eq S visible kept first
    exact ⟨hashes, copies, publishable⟩

theorem answers_iff (backbone : Backbone) (request : RetrievalQuery) (principal : Principal) :
    (S.queryKnowledgeBackbone backbone request.query request.topK
      (some principal.principalId)).isSome = true ↔
        BackboneReadable S backbone request principal := by
  rw [RetrievalSettings.queryKnowledgeBackbone, BackboneReadable]
  by_cases nobody : principal.principalId = ""
  · rw [if_pos (by simp [isSet, nobody])]
    exact iff_of_true rfl fun solid => absurd nobody solid
  · rw [if_neg (by simp [isSet, nobody]), forall_prop_of_true nobody]
    rcases backbone request.query request.topK with _ | rows
    · exact iff_of_true rfl fun rows here => by contradiction
    · simp only [Option.some.injEq, forall_eq']
      exact rows_answered_iff S rows principal.principalId

/-! An answer of the backbone leaves the vault's part of the response as it is. -/

theorem strOf_eq (v : Value) (text : String) (written : S.strOf v = some text) : v.text S.unicode = text := by
  rw [RetrievalSettings.strOf] at written
  split at written
  · exact Option.some.inj written
  · contradiction

/-- What a chunk has of its row. -/
theorem kbChunk_of_row (row : KbRow) (chunk : RetrievalChunk) (done : S.rowToKbChunk row = some chunk) :
    chunk.source = .knowledgeBackbone ∧ S.score row = some chunk.score ∧ chunk.texts = S.rowTexts row := by
  rcases Option.bind_eq_some_iff.mp done with ⟨id, id_, done⟩
  rcases Option.bind_eq_some_iff.mp done with ⟨sha, sha_, done⟩
  rcases Option.bind_eq_some_iff.mp done with ⟨citation, citation_, done⟩
  rcases Option.bind_eq_some_iff.mp done with ⟨score, score_, done⟩
  rcases Option.bind_eq_some_iff.mp done with ⟨account, account_, done⟩
  rcases Option.bind_eq_some_iff.mp done with ⟨classification, classification_, done⟩
  rcases Option.bind_eq_some_iff.mp done with ⟨drive, drive_, done⟩
  rcases Option.bind_eq_some_iff.mp done with ⟨file, file_, done⟩
  rcases Option.bind_eq_some_iff.mp done with ⟨path, path_, done⟩
  rcases Option.bind_eq_some_iff.mp done with ⟨modified, modified_, done⟩
  rcases Option.bind_eq_some_iff.mp done with ⟨hash, hash_, done⟩
  rcases Option.bind_eq_some_iff.mp done with ⟨flag, -, done⟩
  rcases Option.bind_eq_some_iff.mp done with ⟨content, content_, done⟩
  have texts : chunk.texts = S.rowTexts row := by
    rw [RetrievalSettings.rowTexts, strOf_eq S _ id id_, strOf_eq S _ sha sha_, strOf_eq S _ citation citation_,
      account_, classification_, drive_, file_, path_, modified_, hash_, content_, ← Option.some.inj done]
    simp [RetrievalChunk.texts]
  rw [← Option.some.inj done] at texts ⊢
  exact ⟨rfl, score_, texts⟩

theorem answered_chunks (backbone : Backbone) (query : String) (topK : Int) (principal : Option String)
    (answer : BackboneAnswer)
    (done : S.queryKnowledgeBackbone backbone query topK principal = some answer) :
    ∀ chunk ∈ answer.chunks, chunk.source = .knowledgeBackbone := by
  rw [RetrievalSettings.queryKnowledgeBackbone] at done
  split at done
  · obtain rfl := Option.some.inj done
    exact List.forall_mem_nil _
  split at done
  · obtain rfl := Option.some.inj done
    exact List.forall_mem_nil _
  · simp only [Option.bind_eq_bind, Option.bind_eq_some_iff] at done
    obtain ⟨resolved, -, scored, -, chunks, made, same⟩ := done
    obtain rfl := Option.some.inj same
    intro chunk member
    rw [mapM_eq_filterMap S.rowToKbChunk S.rowToKbChunk scored (fun _ _ _ => id) chunks made] at member
    obtain ⟨row, -, built⟩ := List.mem_filterMap.mp member
    exact (kbChunk_of_row S row chunk built).1

theorem no_rows_answered (query : String) (topK : Int) (principal : Option String) :
    S.queryKnowledgeBackbone (fun _ _ => some []) query topK principal = some ⟨[], false, none⟩ := by
  rw [RetrievalSettings.queryKnowledgeBackbone]
  split
  · rfl
  · have nobody : filterByPermission [] principal = [] := by
      rw [filterByPermission]
      split <;> rfl
    simp only [RetrievalSettings.resolve, nobody]
    rfl

theorem kbChunk_renders (row : KbRow) (chunk : RetrievalChunk) (done : S.rowToKbChunk row = some chunk) :
    S.renders chunk = S.rendersRow row := by
  rcases kbChunk_of_row S row chunk done with ⟨-, score, texts⟩
  rw [RetrievalSettings.renders, RetrievalSettings.rendersRow, texts, score]
  rfl

theorem chunks_render_iff (read : KbRow → Option RetrievalChunk) (rows : List KbRow)
    (chunks : List RetrievalChunk) (made : rows.mapM read = some chunks) :
    (∀ chunk ∈ chunks, S.renders chunk = true) ↔
      ∀ row ∈ rows, ∃ chunk, read row = some chunk ∧ S.renders chunk = true := by
  have each : ∀ row ∈ rows, (read row).isSome = true :=
    (mapM_isSome read rows).mp (by rw [made]; rfl)
  rw [mapM_eq_filterMap read read rows (fun _ _ _ => id) chunks made]
  constructor
  · intro rendered row member
    obtain ⟨chunk, built⟩ := Option.isSome_iff_exists.mp (each row member)
    exact ⟨chunk, built, rendered chunk (List.mem_filterMap.mpr ⟨row, member, built⟩)⟩
  · intro rendered chunk member
    obtain ⟨row, own, built⟩ := List.mem_filterMap.mp member
    obtain ⟨chunk', same, renders⟩ := rendered row own
    rw [built] at same
    exact Option.some.inj same ▸ renders

theorem answered_render_iff (backbone : Backbone) (request : RetrievalQuery) (principal : Principal)
    (answer : BackboneAnswer)
    (done : S.queryKnowledgeBackbone backbone request.query request.topK
      (some principal.principalId) = some answer) :
    (∀ chunk ∈ answer.chunks, S.renders chunk = true) ↔ BackboneRenders S backbone request principal := by
  rw [RetrievalSettings.queryKnowledgeBackbone] at done
  rw [BackboneRenders]
  by_cases nobody : principal.principalId = ""
  · rw [if_pos (by simp [isSet, nobody])] at done
    rw [← Option.some.inj done]
    exact iff_of_true (List.forall_mem_nil _) fun solid => absurd nobody solid
  · rw [if_neg (by simp [isSet, nobody])] at done
    rw [forall_prop_of_true nobody]
    rcases asked : backbone request.query request.topK with _ | rows
    · rw [asked] at done
      rw [← Option.some.inj done]
      exact iff_of_true (List.forall_mem_nil _) fun rows here => by contradiction
    · rw [asked] at done
      simp only [Option.bind_eq_bind, Option.bind_eq_some_iff] at done
      obtain ⟨resolved, deduped, scored, kept, chunks, made, same⟩ := done
      obtain ⟨first, identified, second⟩ := Option.bind_eq_some_iff.mp deduped
      have shown := dedupByContentHash_eq S first resolved second
      rw [dedupByIdentity_eq S _ first identified] at shown
      have built : ∀ row ∈ scored, (S.rowToKbChunk row).isSome = true :=
        (mapM_isSome S.rowToKbChunk scored).mp (by rw [made]; rfl)
      have each : ∀ row ∈ scored, (∃ chunk, S.rowToKbChunk row = some chunk ∧ S.renders chunk = true) ↔
          S.rendersRow row = true := by
        intro row member
        obtain ⟨chunk, whole⟩ := Option.isSome_iff_exists.mp (built row member)
        rw [← kbChunk_renders S row chunk whole, whole]
        simp
      rw [← Option.some.inj same, chunks_render_iff S S.rowToKbChunk scored chunks made, forall₂_congr each,
        scored_eq S resolved scored kept, shown]
      simp only [List.mem_filter, and_imp, Option.some.injEq, forall_eq']
      rfl

/-- What the route answers, where the vault can be read and the backbone has answered. -/
theorem retrievalAnswer_of_read (backbone : Backbone) (rows scored : List KbRow)
    (freshness : Option String × Bool) (vaultChunks : List RetrievalChunk) (request : RetrievalQuery)
    (principal : Principal) (answer : BackboneAnswer) (reaching : S.scored rows = some scored)
    (read : scored.mapM S.rowToChunk = some vaultChunks) (asked : request.domainHint ≠ .vault)
    (done : S.queryKnowledgeBackbone backbone request.query request.topK
      (some principal.principalId) = some answer) :
    (S.retrievalAnswer backbone (.rows rows (some freshness)) request principal).map
        RetrievalResponse.vaultPart =
      if (vaultChunks ++ answer.chunks).all S.renders then
        some (vaultChunks.filter fun chunk => chunk.source = .vault, false, freshness.2)
      else none := by
  have others := answered_chunks S backbone _ _ _ answer done
  have none_vault : (answer.chunks.filter fun chunk => chunk.source = .vault) = [] := by
    apply List.filter_eq_nil_iff.mpr
    intro chunk member
    simp [others chunk member]
  rw [RetrievalSettings.retrievalAnswer, RetrievalSettings.retrievalQuery]
  simp only [reaching, read, done, Option.bind_eq_bind, Option.bind_some, if_neg asked]
  rw [Option.filter_some]
  by_cases rendered : (vaultChunks ++ answer.chunks).all S.renders = true
  · rw [if_pos rendered, if_pos rendered, Option.map_some, RetrievalResponse.vaultPart, List.filter_append,
      none_vault, List.append_nil]
  · rw [if_neg rendered, if_neg rendered, Option.map_none]

theorem vault_part_same_iff (backbone : Backbone) (vault : VaultAnswer) (request : RetrievalQuery)
    (principal : Principal) (answers : (S.queryKnowledgeBackbone backbone request.query request.topK
      (some principal.principalId)).isSome = true) :
    (S.retrievalAnswer backbone vault request principal).map RetrievalResponse.vaultPart =
        (S.retrievalAnswer (fun _ _ => some []) vault request principal).map
          RetrievalResponse.vaultPart ↔
      (request.domainHint ≠ .vault → VaultRenders S vault →
        BackboneRenders S backbone request principal) := by
  obtain ⟨answer, done⟩ := Option.isSome_iff_exists.mp answers
  cases vault with
  | unavailable => exact iff_of_true rfl fun _ never => never.elim
  | rows rows freshness =>
    -- where the vault fails by itself it fails beside either backbone
    rcases freshness with _ | freshness
    · exact iff_of_true rfl fun _ renders => absurd renders.1 (by decide)
    rcases reaching : S.scored rows with _ | scored
    · refine iff_of_true ?_ fun _ renders => ?_
      · simp only [RetrievalSettings.retrievalAnswer, RetrievalSettings.retrievalQuery, reaching]
        rfl
      · have numbers := (scored_isSome S rows).mpr renders.2.1
        rw [reaching] at numbers
        contradiction
    have reached := scored_eq S rows scored reaching
    rcases read : scored.mapM S.rowToChunk with _ | vaultChunks
    · refine iff_of_true ?_ fun _ renders => ?_
      · simp only [RetrievalSettings.retrievalAnswer, RetrievalSettings.retrievalQuery, reaching,
          Option.bind_eq_bind, Option.bind_some, read]
        rfl
      · have each := (mapM_isSome S.rowToChunk scored).mpr fun row member => by
          rw [reached, List.mem_filter] at member
          obtain ⟨chunk, built, -⟩ := renders.2.2 row member.1 member.2
          rw [built]
          rfl
        rw [read] at each
        contradiction
    by_cases asked : request.domainHint = .vault
    · refine iff_of_true ?_ fun other => absurd asked other
      simp only [RetrievalSettings.retrievalAnswer, RetrievalSettings.retrievalQuery, if_pos asked]
    rw [retrievalAnswer_of_read S backbone rows scored freshness vaultChunks request principal answer reaching
        read asked done,
      retrievalAnswer_of_read S (fun _ _ => some []) rows scored freshness vaultChunks request principal _
        reaching read asked (no_rows_answered S _ _ _), List.append_nil, List.all_append,
      ← answered_render_iff S backbone request principal answer done]
    have vaultRendered := chunks_render_iff S S.rowToChunk scored vaultChunks read
    by_cases rendered : vaultChunks.all S.renders = true
    · have renders : VaultRenders S (.rows rows (some freshness)) := by
        refine ⟨rfl, (scored_isSome S rows).mp (by rw [reaching]; rfl), fun row member reaches => ?_⟩
        have own : row ∈ scored := by
          rw [reached]
          exact List.mem_filter.mpr ⟨member, reaches⟩
        exact vaultRendered.mp (List.all_eq_true.mp rendered) row own
      rw [rendered, Bool.true_and, if_pos rfl, forall_prop_of_true asked, forall_prop_of_true renders,
        ← List.all_eq_true]
      split
      · rename_i all_
        exact iff_of_true rfl all_
      · rename_i some_
        exact iff_of_false (by simp) some_
    · rw [Bool.not_eq_true] at rendered
      refine iff_of_true (by rw [rendered, Bool.false_and]) fun _ renders => ?_
      have all_ : vaultChunks.all S.renders = true := by
        rw [List.all_eq_true]
        refine vaultRendered.mpr fun row member => ?_
        rw [reached, List.mem_filter] at member
        exact renders.2.2 row member.1 member.2
      rw [rendered] at all_
      contradiction

/-- The second backend leaves the first unharmed exactly when its rows can be read, and rendered where the
vault's are. -/
theorem vault_unharmed_iff (backbone : Backbone) (vault : VaultAnswer) (request : RetrievalQuery)
    (principal : Principal) :
    VaultUnharmed S backbone vault request principal ↔
      BackboneReadable S backbone request principal ∧ (request.domainHint ≠ .vault →
        VaultRenders S vault → BackboneRenders S backbone request principal) := by
  rw [← answers_iff]
  constructor
  · intro unharmed
    exact ⟨unharmed.answers,
      (vault_part_same_iff S backbone vault request principal unharmed.answers).mp unharmed.same⟩
  · intro condition
    exact ⟨condition.1,
      (vault_part_same_iff S backbone vault request principal condition.1).mpr condition.2⟩

end

def plainSettings : RetrievalSettings where
  unicode := { lower := id, printable := fun _ => true }
  redactText text := some text
  floatOfText _ := none
  floatOfInt n := if n = 1 then some ⟨"1.0", some 1, one_plain⟩ else none
  minScore := ⟨"0.35", some (7 / 20), floatText_plain "0.35" rfl⟩
  lone _ := false

def driveRow (score : Value) : KbRow :=
  [("source_account", str "canonical"), ("source_classification", str "canonical"),
    ("drive_id", str "drive-1"), ("file_id", str "file-1"), ("content_hash", str "9f86d081"),
    ("permissions_snapshot", dict [("principals", list [str "user:1"])]), ("score", score)]

def invoiceQuery : RetrievalQuery where
  query := "open invoices"
  topK := 8
  entityFilter := none
  includeSuperseded := false
  domainHint := .any
  requestingPrincipal := none

def retrievalUser : Principal where
  principalId := "user:1"
  tenantId := "tenant-1"
  clientId := "cato"
  scopes := ["retrieval.query"]
  authMethod := "ap2"
  expiresAt := 1767225900

theorem word_score_raises :
    ¬∀ (S : RetrievalSettings) (backbone : Backbone) (vault : VaultAnswer) (request : RetrievalQuery)
      (principal : Principal), VaultUnharmed S backbone vault request principal := by
  intro unharmed
  have answers := (unharmed plainSettings (fun _ _ => some [driveRow (str "high")])
    (.rows [] (some (none, false))) invoiceQuery retrievalUser).answers
  exact absurd answers (by decide)

end GenesisAgents
