import GenesisAgents.XeroTool
import GenesisAgents.Library.KeyedGroups

/-! `operation_allowed`, with and without the override that forbids a specialist to write. -/

namespace GenesisAgents

open Value

/-- The first answer of `operation_allowed` -/
def ScopeMap.allows (M : ScopeMap) (slug operation : String) : Prop :=
  ∃ why, operationAllowed M slug (str operation) = some (true, why)

/-- The map in which the override of the slug has `writes_forbidden`. -/
def ScopeMap.forbid (M : ScopeMap) (slug : String) : ScopeMap :=
  { M with writesForbidden := slug :: M.writesForbidden }

def ScopeMap.permit (M : ScopeMap) (slug : String) : ScopeMap :=
  { M with writesForbidden := M.writesForbidden.filter fun other => other != slug }

def KnownOperation (operation : String) : Prop :=
  (operationScopeFamily.lookup operation).isSome ∨ (operationPrimaryAgents.lookup operation).isSome

def scopeFamily (operation : String) : String := (operationScopeFamily.lookup operation).getD ""

def readFamily (operation : String) : Bool := closesWith ".read" (scopeFamily operation)

def readsByName (operation : String) : Bool := opensWith "get_" operation || opensWith "list_" operation

theorem allows_specialist (M : ScopeMap) (slug operation : String) (allowed : M.allows slug operation) :
    opensWith "genesis-e4l-" slug = true := by
  rcases allowed with ⟨why, allowed⟩
  by_contra other
  rw [operationAllowed, if_pos (by simpa using other)] at allowed
  cases allowed

theorem allows_iff (M : ScopeMap) (slug operation : String) (specialist : opensWith "genesis-e4l-" slug = true) :
    M.allows slug operation ↔ (textOperationAllowed M slug operation).1 = true := by
  have plain : ¬ (!opensWith "genesis-e4l-" slug) = true := by simp [specialist]
  rw [ScopeMap.allows, operationAllowed, if_neg plain]
  constructor
  · rintro ⟨why, same⟩
    rw [Option.some.inj same]
  · intro first
    exact ⟨(textOperationAllowed M slug operation).2, congrArg some (Prod.ext first rfl)⟩

/-- Under the override: reads, by their family or by their name. -/
theorem allowed_forbidden (M : ScopeMap) (slug operation : String)
    (forbidden : M.writesForbidden.contains slug = true) :
    (textOperationAllowed M slug operation).1 = (readFamily operation || readsByName operation) := by
  rw [textOperationAllowed, if_pos forbidden, ← scopeFamily, Bool.or_assoc, ← readsByName, ← readFamily]
  by_cases reads : (readFamily operation || readsByName operation) = true
  · rw [if_pos reads, reads]
  · rw [if_neg reads, Bool.eq_false_of_not_eq_true reads]

/-- Without it: the table of primary agents, or else the map. -/
theorem allowed_permitted (M : ScopeMap) (slug operation : String)
    (permitted : M.writesForbidden.contains slug = false) :
    (textOperationAllowed M slug operation).1 =
      match operationPrimaryAgents.lookup operation with
      | some primary => primary.contains slug
      | none => scopeFamily operation != "" &&
          (if readFamily operation then (M.expandRead (scopeFamily operation)).contains slug
          else (M.primaryWrite (scopeFamily operation)).contains slug) := by
  have open_branch : ¬ M.writesForbidden.contains slug = true := Bool.eq_false_iff.mp permitted
  rw [textOperationAllowed, if_neg open_branch, ← scopeFamily, ← readFamily]
  cases operationPrimaryAgents.lookup operation with
  | some primary =>
    dsimp only
    split <;> simp_all
  | none =>
    dsimp only
    split
    · rename_i unknown
      simp [unknown]
    · split <;> simp_all

theorem family_of_known (operation : String) (known : KnownOperation operation) :
    ∃ family, operationScopeFamily.lookup operation = some family := by
  rcases known with known | known
  · exact Option.isSome_iff_exists.mp known
  · rcases Option.isSome_iff_exists.mp known with ⟨primary, found⟩
    have tables : ∀ entry ∈ operationPrimaryAgents, (operationScopeFamily.lookup entry.1).isSome = true := by
      decide
    exact Option.isSome_iff_exists.mp (tables _ (KeyedGroups.lookup_mem _ operation primary found))

theorem readFamily_of_name (operation : String) (known : KnownOperation operation)
    (named : readsByName operation = true) : readFamily operation = true := by
  rcases family_of_known operation known with ⟨family, found⟩
  have table : ∀ entry ∈ operationScopeFamily, readsByName entry.1 = true → closesWith ".read" entry.2 = true := by
    decide
  rw [readFamily, scopeFamily, found]
  exact table _ (KeyedGroups.lookup_mem _ operation family found) named

theorem known_of_readFamily (operation : String) (reads : readFamily operation = true) :
    KnownOperation operation := by
  rcases found : operationScopeFamily.lookup operation with _ | family
  · rw [readFamily, scopeFamily, found] at reads
    exact absurd reads (by decide)
  · exact .inl (by rw [found]; rfl)

theorem known_of_permitted (M : ScopeMap) (slug operation : String)
    (permitted : M.writesForbidden.contains slug = false)
    (allowed : (textOperationAllowed M slug operation).1 = true) : KnownOperation operation := by
  by_contra unknown
  rw [KnownOperation, not_or, Option.not_isSome_iff_eq_none, Option.not_isSome_iff_eq_none] at unknown
  have unnamed : scopeFamily operation = "" := by
    rw [scopeFamily, unknown.1]
    rfl
  rw [allowed_permitted M slug operation permitted, unknown.2, unnamed] at allowed
  cases allowed

theorem reads_of_forbidden (M : ScopeMap) (slug operation : String)
    (forbidden : M.writesForbidden.contains slug = true)
    (allowed : (textOperationAllowed M slug operation).1 = true) :
    readFamily operation = true ∨ (¬ KnownOperation operation ∧ readsByName operation = true) := by
  rw [allowed_forbidden M slug operation forbidden, Bool.or_eq_true] at allowed
  rcases allowed with reads | named
  · exact .inl reads
  · by_cases known : KnownOperation operation
    · exact .inl (readFamily_of_name operation known named)
    · exact .inr ⟨known, named⟩

/-- Only known operations are allowed, but for unknown names of reads under the override; and what the
override lets in is a read. -/
theorem scope_decisions_closed (M : ScopeMap) (slug operation : String) :
    (M.allows slug operation →
      KnownOperation operation ∨ (M.writesForbidden.contains slug = true ∧ readsByName operation = true)) ∧
    (¬ (M.permit slug).allows slug operation → (M.forbid slug).allows slug operation →
      readFamily operation = true ∨ (¬ KnownOperation operation ∧ readsByName operation = true)) := by
  constructor
  · intro allows
    have allowed := (allows_iff M slug operation (allows_specialist M slug operation allows)).mp allows
    by_cases forbidden : M.writesForbidden.contains slug = true
    · rcases reads_of_forbidden M slug operation forbidden allowed with reads | ⟨_, named⟩
      · exact .inl (known_of_readFamily operation reads)
      · exact .inr ⟨forbidden, named⟩
    · exact .inl (known_of_permitted M slug operation (Bool.eq_false_iff.mpr forbidden) allowed)
  · intro _ allows
    have allowed := (allows_iff _ slug operation (allows_specialist _ slug operation allows)).mp allows
    exact reads_of_forbidden (M.forbid slug) slug operation (by simp [ScopeMap.forbid]) allowed

/-- The map of the repository, as far as `genesis-e4l-fs-integrity` and the bank summary go. -/
def integrityScopeMap : ScopeMap where
  specialists := ["genesis-e4l-cash", "genesis-e4l-treasury", "genesis-e4l-close", "genesis-e4l-fs-integrity"]
  scopes := [("accounting.reports.banksummary.read",
    ⟨[], .only ["genesis-e4l-cash", "genesis-e4l-treasury", "genesis-e4l-close"]⟩)]
  writesForbidden := ["genesis-e4l-fs-integrity"]

theorem read_only_specialist_reads_more :
    ¬ ∀ (M : ScopeMap) (slug operation : String),
      (M.allows slug operation → KnownOperation operation) ∧
        ((M.forbid slug).allows slug operation → (M.permit slug).allows slug operation) := by
  intro closed
  have specialist : opensWith "genesis-e4l-" "genesis-e4l-fs-integrity" = true := by decide
  have widened := (closed integrityScopeMap "genesis-e4l-fs-integrity" "get_bank_summary").2
  rw [allows_iff _ _ _ specialist, allows_iff _ _ _ specialist] at widened
  exact absurd (widened (by decide)) (by decide)

end GenesisAgents
