import GenesisAgents.AuditCoverage

/-! Chains from before head tracking. The first append creates a head that counts itself only, so the
verifier finds more rows than the head records. -/

namespace GenesisAgents

open Value

/-! Appending behind the rows of a session. -/

theorem orderedInsert_concat {α : Type} (le : α → α → Prop) [DecidableRel le] (a x : α)
    (l : List α) (below : le a x) : (l ++ [x]).orderedInsert le a = l.orderedInsert le a ++ [x] := by
  induction l with
  | nil => simp [below]
  | cons b rest later =>
    rw [List.cons_append, List.orderedInsert, List.orderedInsert, later]
    split <;> rfl

theorem insertionSort_concat {α : Type} (le : α → α → Prop) [DecidableRel le] (l : List α) (x : α)
    (below : ∀ a ∈ l, le a x) : (l ++ [x]).insertionSort le = l.insertionSort le ++ [x] := by
  induction l with
  | nil => rfl
  | cons a rest later =>
    rw [List.cons_append, List.insertionSort_cons, List.insertionSort_cons,
      later fun b member => below b (List.mem_cons_of_mem _ member)]
    exact orderedInsert_concat le a x _ (below a List.mem_cons_self)

theorem sessionRows_append (rows : List AuditRow) (row : AuditRow) (sessionId : String)
    (above : ∀ earlier ∈ rows, earlier.id < row.id) :
    sessionRows (rows ++ [row]) sessionId =
      if row.sessionId = sessionId then sessionRows rows sessionId ++ [row]
      else sessionRows rows sessionId := by
  rw [sessionRows, List.filter_append]
  by_cases own : row.sessionId = sessionId
  · rw [if_pos own, List.filter_cons_of_pos (by simpa using own), List.filter_nil]
    exact insertionSort_concat _ _ row fun earlier member =>
      (above earlier (List.mem_filter.mp member).1).le
  · rw [if_neg own, List.filter_cons_of_neg (by simpa using own), List.filter_nil, List.append_nil]
    rfl

section

variable (A : Auditing)

/-- A session from before head tracking that verifies. -/
structure Legacy (db : AuditDb) (sessionId : String) : Prop where
  present : sessionRows db.rows sessionId ≠ []
  headless : db.heads sessionId = none
  verified : verifyChain A db sessionId = true
  below : ∀ row ∈ db.rows, row.id < db.nextId

/-- What the later calls keep of such a session: if there is a head, it counts too few rows. -/
structure Undercounted (sessionId : String) (db : AuditDb) : Prop where
  present : sessionRows db.rows sessionId ≠ []
  verified : rowsVerify A "" (sessionRows db.rows sessionId) = true
  below : ∀ row ∈ db.rows, row.id < db.nextId
  counted : ∀ head, db.heads sessionId = some head →
    head.rowCount < (sessionRows db.rows sessionId).length

theorem undercounted_verifies (db : AuditDb) (sessionId : String)
    (holds : Undercounted A sessionId db) :
    verifyChain A db sessionId = true ↔ db.heads sessionId = none := by
  rw [verifyChain, holds.verified, Bool.and_true]
  rcases found : db.heads sessionId with _ | head
  · exact iff_of_true rfl rfl
  · have few := holds.counted head found
    have apart : ((sessionRows db.rows sessionId).length : Int) ≠ head.rowCount := by omega
    simp [headMatches, apart]

theorem append_below (db : AuditDb) (row : AuditRow) (above : ∀ earlier ∈ db.rows, earlier.id < row.id) :
    ∀ other ∈ (db.append row).rows, other.id < (db.append row).nextId := by
  intro other member
  rcases List.mem_append.mp member with earlier | last
  · exact (above other earlier).trans (Int.lt_succ _)
  · rw [List.mem_singleton.mp last]
    exact Int.lt_succ _

/-- An append to the session itself: the rows stay one ahead of the head. -/
theorem append_own (db : AuditDb) (row : AuditRow) (holds : Undercounted A row.sessionId db)
    (above : ∀ earlier ∈ db.rows, earlier.id < row.id)
    (joins : row.prevHash = db.lastRowHash row.sessionId)
    (hashed : A.sha256 row.payload = row.rowHash) :
    Undercounted A row.sessionId (db.append row) := by
  have rows : sessionRows (db.append row).rows row.sessionId =
      sessionRows db.rows row.sessionId ++ [row] := by
    rw [AuditDb.append, sessionRows_append db.rows row row.sessionId above, if_pos rfl]
  have before := (rowsVerify_iff A "" _).mp holds.verified
  refine ⟨?_, ?_, append_below db row above, ?_⟩
  · rw [rows]
    simp
  · rw [rows]
    refine (rowsVerify_iff A "" _).mpr ⟨?_, ?_⟩
    · refine HashChain.linked_append_singleton _ _ "" _ row before.1 ?_
      rw [HashChain.tip_eq_getLast, joins]
      rfl
    · intro other member
      rcases List.mem_append.mp member with earlier | last
      · exact before.2 other earlier
      · rw [List.mem_singleton.mp last]
        exact hashed
  · intro head found
    have created : AuditDb.nextHead (db.heads row.sessionId) row = head := by
      rw [AuditDb.append] at found
      simpa using found
    rw [rows, List.length_append, List.length_singleton, ← created, AuditDb.nextHead]
    rcases old : db.heads row.sessionId with _ | earlier
    · have some_row := List.length_pos_of_ne_nil holds.present
      simp only [Option.map_none, Option.getD_none]
      omega
    · have few := holds.counted earlier old
      simp only [Option.map_some, Option.getD_some]
      omega

theorem append_other (db : AuditDb) (row : AuditRow) (sessionId : String)
    (holds : Undercounted A sessionId db) (other : row.sessionId ≠ sessionId)
    (above : ∀ earlier ∈ db.rows, earlier.id < row.id) :
    Undercounted A sessionId (db.append row) := by
  have rows : sessionRows (db.append row).rows sessionId = sessionRows db.rows sessionId := by
    rw [AuditDb.append, sessionRows_append db.rows row sessionId above, if_neg other]
  have heads : (db.append row).heads sessionId = db.heads sessionId := by
    rw [AuditDb.append]
    exact if_neg other.symm
  refine ⟨?_, ?_, append_below db row above, ?_⟩
  · rw [rows]
    exact holds.present
  · rw [rows]
    exact holds.verified
  · rw [rows, heads]
    exact holds.counted

theorem newRow_above (db : AuditDb) (call : LogCall) (inputsJson outputsJson : String)
    (below : ∀ row ∈ db.rows, row.id < db.nextId) :
    ∀ earlier ∈ db.rows, earlier.id < (db.newRow A call inputsJson outputsJson).id := by
  intro earlier member
  have fresh := Int.natCast_nonneg call.skippedIds
  have before := below earlier member
  change earlier.id < db.nextId + call.skippedIds
  omega

theorem step_undercounted (sessionId : String) (db : AuditDb) (call : LogCall)
    (holds : Undercounted A sessionId db) : Undercounted A sessionId (db.step A call) := by
  rcases logStep_cases A db call with same | ⟨inputsJson, outputsJson, appended⟩
  · rwa [same]
  · have above := newRow_above A db call inputsJson outputsJson holds.below
    rw [appended]
    by_cases own : (db.newRow A call inputsJson outputsJson).sessionId = sessionId
    · rw [← own] at holds ⊢
      exact append_own A db _ holds above rfl rfl
    · exact append_other A db _ sessionId holds own above

/-- A call leaves the session without a head exactly when it is for another one or raises. -/
theorem step_headless (db : AuditDb) (call : LogCall) (sessionId : String)
    (headless : db.heads sessionId = none) :
    (call.sessionId != sessionId || !isRecorded A call) = true ↔
      (db.step A call).heads sessionId = none := by
  rw [← log_isSome A db call, AuditDb.step]
  rcases logged : db.log A call with _ | next
  · simpa using headless
  · rcases log_some A db next call logged with ⟨inputsJson, outputsJson, -, rfl⟩
    have head : (db.append (db.newRow A call inputsJson outputsJson)).heads sessionId =
        if sessionId = call.sessionId then
          some (AuditDb.nextHead (db.heads sessionId) (db.newRow A call inputsJson outputsJson))
        else db.heads sessionId := rfl
    rw [Option.getD_some, head]
    by_cases own : sessionId = call.sessionId
    · simp [own]
    · simp [own, Ne.symm own, headless]

theorem step_keeps_head (db : AuditDb) (call : LogCall) (sessionId : String)
    (after : (db.step A call).heads sessionId = none) : db.heads sessionId = none := by
  rcases logStep_cases A db call with same | ⟨inputsJson, outputsJson, appended⟩
  · rwa [same] at after
  · rw [appended, AuditDb.append] at after
    dsimp only at after
    split at after
    · contradiction
    · exact after

theorem run_verifies_iff (db : AuditDb) (sessionId : String) (legacy : Legacy A db sessionId)
    (calls : List LogCall) :
    verifyChain A (Runs.run (AuditDb.step A) db calls) sessionId = true ↔
      ∀ call ∈ calls, (call.sessionId != sessionId || !isRecorded A call) = true := by
  have begins : Undercounted A sessionId db := by
    have verified := legacy.verified
    rw [verifyChain, Bool.and_eq_true] at verified
    exact ⟨legacy.present, verified.2, legacy.below, by simp [legacy.headless]⟩
  have ends := Runs.run_always (AuditDb.step A) (Undercounted A sessionId)
    (step_undercounted A sessionId) calls db begins
  rw [undercounted_verifies A _ sessionId ends, ← Runs.guarded_events (AuditDb.step A) _ calls db]
  exact (Runs.guarded_iff (AuditDb.step A) (Undercounted A sessionId)
    (fun db => db.heads sessionId = none) _ (step_undercounted A sessionId)
    (fun db call _ headless => step_headless A db call sessionId headless)
    (fun db call _ after => step_keeps_head A db call sessionId after) calls db begins
    legacy.headless).symm

/-- A chain from before head tracking verifies after each of the later calls exactly when none of them
appends to it. -/
theorem legacy_verifies_iff (db : AuditDb) (sessionId : String) (legacy : Legacy A db sessionId)
    (calls : List LogCall) :
    (∀ count, verifyChain A (Runs.run (AuditDb.step A) db (calls.take count)) sessionId = true) ↔
      ∀ call ∈ calls, call.sessionId = sessionId → isRecorded A call = false := by
  have allowed (call : LogCall) : (call.sessionId != sessionId || !isRecorded A call) = true ↔
      (call.sessionId = sessionId → isRecorded A call = false) := by
    by_cases own : call.sessionId = sessionId <;> simp [own]
  constructor
  · intro always call member
    have whole := always calls.length
    rw [List.take_length, run_verifies_iff A db sessionId legacy] at whole
    exact (allowed call).mp (whole call member)
  · intro silent count
    rw [run_verifies_iff A db sessionId legacy]
    exact fun call member => (allowed call).mpr (silent call (List.mem_of_mem_take member))

end

/-! The chain of one call, written before heads were, and one more call. -/

def legacyDb : AuditDb := { nextId := 2, rows := [loggedRow], heads := fun _ => none }

set_option maxRecDepth 20000 in
theorem legacyDb_legacy : Legacy knownAuditing legacyDb "sess-1" where
  present := by decide
  headless := rfl
  verified := by rfl
  below := by decide

theorem legacy_chain_condemned :
    ¬∀ (A : Auditing) (db : AuditDb) (sessionId : String), Legacy A db sessionId →
      ∀ calls : List LogCall, (∀ call ∈ calls, call.sessionId = sessionId) → ∀ count,
        verifyChain A (Runs.run (AuditDb.step A) db (calls.take count)) sessionId = true := by
  intro hold
  have verified := hold knownAuditing legacyDb "sess-1" legacyDb_legacy [loggedCall]
    (by simp [loggedCall]) 1
  rw [run_verifies_iff knownAuditing legacyDb "sess-1" legacyDb_legacy] at verified
  have silent := verified loggedCall (by simp)
  exact absurd silent (by decide)

theorem legacyDb_verdicts :
    (∀ count, verifyChain knownAuditing (Runs.run (AuditDb.step knownAuditing) legacyDb
        ([loggedCall].take count)) "sess-1" = true) ↔
      ∀ call ∈ [loggedCall], call.sessionId = "sess-1" → isRecorded knownAuditing call = false :=
  legacy_verifies_iff knownAuditing legacyDb "sess-1" legacyDb_legacy [loggedCall]

end GenesisAgents
