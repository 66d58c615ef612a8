import GenesisAgents.Gateway
import GenesisAgents.JsonValue
import GenesisAgents.Migrations

/-! The boot check of `runtime/tool_policy.py`, and what an edit of one of the tables that passes it
may still take away. -/

namespace GenesisAgents

open Value

/-- What the check reads besides the tables; both stay as they are when a table is edited. -/
structure BootImage where
  /-- `hashlib.sha256(text.encode()).hexdigest()` -/
  sha256 : String → String
  /-- The lines of `prohibited_tools.sha256`; `none` is an `OSError`. -/
  manifestLines : Option (List String)
  /-- The keys of `tools._TOOLS`. -/
  registry : List String

/-- The `RuntimeError`s of the check, with what their texts name. -/
inductive BootFailure where
  | manifestUnreadable
  | manifestMismatch (expected onDisk : String)
  | registered (present : List String)
  | slugGrantsProhibited (slug : String)
  | defaultGrantsProhibited
  | paymentGranted (holders : List String)
  | defaultGrantsPayment
  deriving DecidableEq, Repr

namespace PolicyTables

variable (tables : PolicyTables)

/-- `PROHIBITION_MANIFEST_NAMES` -/
def manifestNames : List String := sortedNames (tables.prohibitionGroups.map Prod.fst)

def manifestText : String :=
  (dumpsWith .compactAscii (sortKeys (.list (tables.manifestNames.map .str)))).getD ""

def holders (risk : Risk) : List String :=
  (tables.slugAllowedRisks.filter fun grant => grant.2.contains risk).map Prod.fst

end PolicyTables

namespace BootImage

variable (B : BootImage) (tables : PolicyTables)

def prohibitionManifestDigest : String := B.sha256 tables.manifestText

/-- `line.split()[0].lower()` of a stripped line; a digest has only ASCII letters. -/
def firstWord (line : String) : String :=
  asciiLower (String.ofList (line.toList.takeWhile fun c => !isSpace c))

def readManifestDigest : Option String :=
  B.manifestLines.bind fun lines =>
    ((lines.map strip).find? fun line => line != "" && line.toList.head? != some '#').map firstWord

/-- `sorted(PROHIBITED_TOOLS & set(registry))` -/
def present : List String := sortedNames (tables.prohibitedTools.filter fun name => B.registry.contains name)

def assertProhibitionsIntact : Except BootFailure Unit :=
  let expected := B.prohibitionManifestDigest tables
  match B.readManifestDigest with
  | none => .error .manifestUnreadable
  | some onDisk =>
    if onDisk ≠ expected then .error (.manifestMismatch expected onDisk)
    else if B.present tables ≠ [] then .error (.registered (B.present tables))
    else
      match (tables.holders .prohibited).head? with
      | some slug => .error (.slugGrantsProhibited slug)
      | none =>
        if tables.defaultAllowedRisks.contains .prohibited then .error .defaultGrantsProhibited
        else if tables.holders .payment ≠ [] then
          .error (.paymentGranted (sortedNames (tables.holders .payment)))
        else if tables.defaultAllowedRisks.contains .payment then .error .defaultGrantsPayment
        else .ok ()

/-- What the check guarantees when it returns. -/
structure Intact : Prop where
  manifest : B.readManifestDigest = some (B.prohibitionManifestDigest tables)
  absent : B.present tables = []
  unprohibited : tables.holders .prohibited = []
  defaultUnprohibited : tables.defaultAllowedRisks.contains .prohibited = false
  unpaid : tables.holders .payment = []
  defaultUnpaid : tables.defaultAllowedRisks.contains .payment = false

theorem assertProhibitionsIntact_ok :
    B.assertProhibitionsIntact tables = .ok () ↔ B.Intact tables := by
  constructor
  · intro returns
    rw [assertProhibitionsIntact] at returns
    split at returns
    · cases returns
    rename_i onDisk read
    split at returns
    · cases returns
    rename_i matching
    split at returns
    · cases returns
    rename_i absent
    split at returns
    · cases returns
    rename_i nobody
    split_ifs at returns with prohibited paid payment
    exact {
      manifest := by rw [read, not_not.mp matching]
      absent := not_not.mp absent
      unprohibited := List.head?_eq_none_iff.mp nobody
      defaultUnprohibited := Bool.eq_false_iff.mpr prohibited
      unpaid := not_not.mp paid
      defaultUnpaid := Bool.eq_false_iff.mpr payment }
  · intro intact
    simp only [assertProhibitionsIntact, intact.manifest, intact.absent, intact.unprohibited,
      intact.defaultUnprohibited, intact.unpaid, intact.defaultUnpaid, ne_eq, not_true, if_false,
      List.head?_nil, Bool.false_eq_true]

end BootImage

inductive TableEdit where
  | prohibitionGroups (groups : List (String × String))
  | slugScopedOnly (names : List String)
  | prohibitedToolsBySlug (bySlug : List (String × List String))
  | toolRiskByName (risks : List (String × Risk))
  | slugAllowedRisks (allowed : List (String × List Risk))

namespace TableEdit

def apply (tables : PolicyTables) : TableEdit → PolicyTables
  | prohibitionGroups groups => { tables with prohibitionGroups := groups }
  | slugScopedOnly names => { tables with slugScopedOnly := names }
  | prohibitedToolsBySlug bySlug => { tables with prohibitedToolsBySlug := bySlug }
  | toolRiskByName risks => { tables with toolRiskByName := risks }
  | slugAllowedRisks allowed => { tables with slugAllowedRisks := allowed }

/-- No name that is prohibited everywhere becomes a slug-scoped one, and the table of the slugs keeps
its entries but for names that are prohibited everywhere. -/
def KeepsEntries (tables : PolicyTables) : TableEdit → Prop
  | slugScopedOnly names => ∀ name ∈ tables.prohibitedTools, name ∉ names
  | prohibitedToolsBySlug bySlug =>
    ∀ slug ≠ "", ∀ name ∈ (tables.prohibitedToolsBySlug.lookup slug).getD [],
      name ∈ (bySlug.lookup slug).getD [] ∨ name ∈ tables.prohibitedTools
  | _ => True

end TableEdit

/-- Every prohibition of the first tables stands in the second ones, and the policy denies the call. -/
def Unweakened (tables edited : PolicyTables) : Prop :=
  ∀ toolName agentSlug, isProhibited tables toolName agentSlug = true →
    isProhibited edited toolName agentSlug = true ∧
      (checkToolPolicy edited agentSlug toolName).ok = false

theorem isProhibited_iff (tables : PolicyTables) (toolName agentSlug : String) :
    isProhibited tables toolName agentSlug = true ↔
      toolName ∈ tables.prohibitedTools ∨
        agentSlug ≠ "" ∧ toolName ∈ (tables.prohibitedToolsBySlug.lookup agentSlug).getD [] := by
  rw [isProhibited]
  by_cases everywhere : toolName ∈ tables.prohibitedTools <;> simp [everywhere]

theorem mem_prohibitedTools (tables : PolicyTables) (name : String) :
    name ∈ tables.prohibitedTools ↔
      name ∈ tables.prohibitionGroups.map Prod.fst ∧ name ∉ tables.slugScopedOnly := by
  simp [PolicyTables.prohibitedTools]

/-- The denial is that of the prohibition, so that the sets of names are all that counts. -/
theorem unweakened_iff (tables edited : PolicyTables) :
    Unweakened tables edited ↔
      (∀ name ∈ tables.prohibitedTools, name ∈ edited.prohibitedTools) ∧
        ∀ slug ≠ "", ∀ name ∈ (tables.prohibitedToolsBySlug.lookup slug).getD [],
          name ∈ edited.prohibitedTools ∨ name ∈ (edited.prohibitedToolsBySlug.lookup slug).getD [] := by
  constructor
  · intro unweakened
    constructor
    · intro name everywhere
      have still := (unweakened name "" ((isProhibited_iff tables name "").mpr (.inl everywhere))).1
      rcases (isProhibited_iff edited name "").mp still with kept | ⟨named, -⟩
      · exact kept
      · exact absurd rfl named
    · intro slug named name entry
      have still := (unweakened name slug ((isProhibited_iff tables name slug).mpr (.inr ⟨named, entry⟩))).1
      rcases (isProhibited_iff edited name slug).mp still with kept | ⟨-, kept⟩
      · exact .inl kept
      · exact .inr kept
  · rintro ⟨everywhere, entries⟩ name slug before
    have still : isProhibited edited name slug = true := by
      apply (isProhibited_iff edited name slug).mpr
      rcases (isProhibited_iff tables name slug).mp before with global | ⟨named, entry⟩
      · exact .inl (everywhere name global)
      · rcases entries slug named name entry with kept | kept
        · exact .inl kept
        · exact .inr ⟨named, kept⟩
    exact ⟨still, (checkToolPolicy_prohibited edited slug name still).1⟩

/-! The manifest fixes the prohibited names. -/

theorem toJsonList_str (names : List String) :
    toJsonList (names.map Value.str) = names.map fun name => JsonText.Json.string name.toList := by
  induction names with
  | nil => rfl
  | cons name rest later => rw [List.map_cons, toJsonList, later, toJson, List.map_cons]

theorem PolicyTables.manifestText_eq (tables : PolicyTables) :
    tables.manifestText = canonicalText (.list (tables.manifestNames.map .str)) := by
  have encodes : (Value.list (tables.manifestNames.map .str)).jsonable = true := by
    rw [jsonable]
    exact jsonableList_str _
  rw [manifestText, canonicalText, sortKeys, sortKeysList_str, defaultStr_jsonable _ encodes]

theorem manifestText_names (tables edited : PolicyTables)
    (same : tables.manifestText = edited.manifestText) :
    ∀ name, name ∈ tables.prohibitionGroups.map Prod.fst ↔
      name ∈ edited.prohibitionGroups.map Prod.fst := by
  rw [tables.manifestText_eq, edited.manifestText_eq] at same
  have values := canonicalText_inj _ _ same
  simp only [jsonValue, sortKeys, sortKeysList_str, toJson, toJsonList_str, JsonText.Json.array.injEq] at values
  have names : tables.manifestNames = edited.manifestNames := by
    refine List.map_injective_iff.mpr ?_ values
    intro name other texts
    exact String.toList_injective (JsonText.Json.string.inj texts)
  intro name
  calc
    _ ↔ name ∈ tables.manifestNames := (List.mem_insertionSort _).symm
    _ ↔ name ∈ edited.manifestNames := by rw [names]
    _ ↔ _ := List.mem_insertionSort _

theorem intact_names (B : BootImage) (tables edited : PolicyTables)
    (intact : B.Intact tables) (still : B.Intact edited)
    (collisionFree : B.sha256 tables.manifestText = B.sha256 edited.manifestText →
      tables.manifestText = edited.manifestText) :
    ∀ name, name ∈ tables.prohibitionGroups.map Prod.fst ↔
      name ∈ edited.prohibitionGroups.map Prod.fst := by
  apply manifestText_names
  apply collisionFree
  have digests := intact.manifest.symm.trans still.manifest
  exact Option.some.inj digests

/-- An edit of one table that passes the boot check weakens no prohibition exactly when it keeps the
entries of the two tables that the manifest leaves out. -/
theorem edit_unweakened_iff (B : BootImage) (tables : PolicyTables) (edit : TableEdit)
    (intact : B.assertProhibitionsIntact tables = .ok ())
    (still : B.assertProhibitionsIntact (edit.apply tables) = .ok ())
    (collisionFree : B.sha256 tables.manifestText = B.sha256 (edit.apply tables).manifestText →
      tables.manifestText = (edit.apply tables).manifestText) :
    Unweakened tables (edit.apply tables) ↔ edit.KeepsEntries tables := by
  have names := intact_names B tables (edit.apply tables)
    ((B.assertProhibitionsIntact_ok tables).mp intact)
    ((B.assertProhibitionsIntact_ok _).mp still) collisionFree
  rw [unweakened_iff]
  cases edit with
  | prohibitionGroups groups =>
    refine iff_of_true ⟨?_, fun slug _ name entry => .inr entry⟩ trivial
    intro name everywhere
    rw [mem_prohibitedTools] at everywhere ⊢
    exact ⟨(names name).mp everywhere.1, everywhere.2⟩
  | slugScopedOnly scopedNames =>
    constructor
    · intro kept name everywhere
      exact ((mem_prohibitedTools _ name).mp (kept.1 name everywhere)).2
    · intro unscoped
      refine ⟨?_, fun slug _ name entry => .inr entry⟩
      intro name everywhere
      have listed := ((mem_prohibitedTools tables name).mp everywhere).1
      exact (mem_prohibitedTools _ name).mpr ⟨listed, unscoped name everywhere⟩
  | prohibitedToolsBySlug bySlug =>
    constructor
    · intro kept slug named name entry
      exact (kept.2 slug named name entry).symm
    · intro kept
      refine ⟨fun name everywhere => everywhere, ?_⟩
      intro slug named name entry
      exact (kept slug named name entry).symm
  | toolRiskByName risks => exact iff_of_true ⟨fun _ kept => kept, fun _ _ _ entry => .inr entry⟩ trivial
  | slugAllowedRisks allowed =>
    exact iff_of_true ⟨fun _ kept => kept, fun _ _ _ entry => .inr entry⟩ trivial

def manifestDigest : String := "4cc2d304312040d94021e31a2593065cd266871987e28efaf26b7c70ddd594aa"

def productionImage : BootImage where
  sha256 text := if text = productionTables.manifestText then manifestDigest else ""
  manifestLines := some ["#", "# Regenerate with: python scripts/regen_prohibited_manifest.py", manifestDigest]
  registry := ["web_search", "workflow_webhook_trigger"]

theorem production_intact (tables : PolicyTables)
    (names : tables.manifestText = productionTables.manifestText)
    (absent : productionImage.present tables = [])
    (unprohibited : tables.holders .prohibited = []) (unpaid : tables.holders .payment = [])
    (default : tables.defaultAllowedRisks = [.readOnly]) :
    productionImage.assertProhibitionsIntact tables = .ok () := by
  rw [BootImage.assertProhibitionsIntact_ok]
  have digest : productionImage.readManifestDigest = some manifestDigest := by decide
  have hashed : productionImage.sha256 productionTables.manifestText = manifestDigest := by
    simp only [productionImage, if_true]
  refine ⟨?_, absent, unprohibited, by rw [default]; rfl, unpaid, by rw [default]; rfl⟩
  rw [digest, BootImage.prohibitionManifestDigest, names, hashed]

/-- Without the table of the slugs the boot check still returns, and a finance agent may fire the
webhook. -/
theorem emptied_slug_table_permits :
    let edited := (TableEdit.prohibitedToolsBySlug []).apply productionTables
    productionImage.assertProhibitionsIntact productionTables = .ok () ∧
      productionImage.assertProhibitionsIntact edited = .ok () ∧
      edited.manifestText = productionTables.manifestText ∧
      isProhibited productionTables "workflow_webhook_trigger" "genesis-finance" = true ∧
      isProhibited edited "workflow_webhook_trigger" "genesis-finance" = false ∧
      (checkToolPolicy edited "genesis-finance" "workflow_webhook_trigger").ok = true := by
  refine ⟨?_, ?_, rfl, by decide, by decide, by decide⟩
  · exact production_intact productionTables rfl (by decide) (by decide) (by decide) rfl
  · exact production_intact _ rfl (by decide) (by decide) (by decide) rfl

/-- The risk table cannot weaken a prohibition, not even when it is emptied. -/
theorem emptied_risk_table_unweakened :
    Unweakened productionTables ((TableEdit.toolRiskByName []).apply productionTables) :=
  (edit_unweakened_iff productionImage productionTables (.toolRiskByName [])
    (production_intact productionTables rfl (by decide) (by decide) (by decide) rfl)
    (production_intact _ rfl (by decide) (by decide) (by decide) rfl) fun _ => rfl).mpr trivial

end GenesisAgents
