import GenesisAgents.AppendSafety
import GenesisAgents.AuditTamper

/-! `verify_chain` over Postgres takes two snapshots: the rows in one transaction, the head in the
next one. Appends commit between them. -/

namespace GenesisAgents

open AuditState

section

variable (A : Auditing) (B : AuditBackend)

/-- The verdict of `verify_chain` on rows and a head that were read apart. -/
def verdict (rows : List AuditRow) (head : Option ChainHead) : Bool :=
  headMatches rows head && rowsVerify A "" rows

/-- `_rows_postgres` in the state `σ`, and `_chain_head` after the events that come between. -/
def verifyAcross (σ : AuditState) (between : List AuditEvent) (sessionId : String) : Bool :=
  verdict A (sessionRows σ.db.rows sessionId) ((σ.run A B between).db.heads sessionId)

example (σ : AuditState) (sessionId : String) :
    verifyAcross A B σ [] sessionId = verifyChain A σ.db sessionId := rfl

def AppendPhase.commits? : AppendPhase → Option String
  | .headed entry _ _ _ => some entry.call.sessionId
  | _ => none

def commitsTo (sessionId : String) (σ : AuditState) : AuditEvent → Bool
  | .advance i => σ.appends[i]?.bind AppendPhase.commits? == some sessionId
  | _ => false

theorem advance_rows (σ : AuditState) (i : Nat) :
    (σ.appends[i]?.bind AppendPhase.commits? = none ∧ (σ.advance A B i).db.rows = σ.db.rows) ∨
      ∃ entry row counter head, σ.appends[i]? = some (.headed entry row counter head) ∧
        (σ.advance A B i).db.rows = σ.db.rows ++ [row] := by
  rw [advance]
  rcases σ.appends[i]? with _ | phase
  · exact .inl ⟨rfl, rfl⟩
  cases phase with
  | encoded entry =>
    refine .inl ⟨rfl, ?_⟩
    dsimp only
    split <;> rfl
  | headed entry row counter head => exact .inr ⟨entry, row, counter, head, rfl, rfl⟩
  | _ => exact .inl ⟨rfl, rfl⟩

theorem fail_rows (σ : AuditState) (i : Nat) : (σ.fail B i).db.rows = σ.db.rows := by
  rw [fail]
  split <;> rfl

/-- A chain grows by a row in the steps that commit to its session, and only in those. -/
theorem step_written (σ : AuditState) (event : AuditEvent) (sessionId : String)
    (inv : StoreInv A B σ) :
    commitsTo sessionId σ event = false ∧
        written (σ.step A B event).db.rows sessionId = written σ.db.rows sessionId ∨
      commitsTo sessionId σ event = true ∧
        ∃ row, written (σ.step A B event).db.rows sessionId =
          written σ.db.rows sessionId ++ [row] := by
  cases event with
  | arrive call => exact .inl ⟨rfl, rfl⟩
  | fail i =>
    refine .inl ⟨rfl, ?_⟩
    rw [step, fail_rows]
  | advance i =>
    rw [step, commitsTo]
    rcases advance_rows A B σ i with ⟨silent, same⟩ | ⟨entry, row, counter, head, present, added⟩
    · rw [silent, same]
      exact .inl ⟨rfl, rfl⟩
    · have own := sealedRow_session A entry row (inv.flight i _ present).1
      rw [present, Option.bind_some, AppendPhase.commits?, added, written_append, own]
      by_cases same : entry.call.sessionId = sessionId
      · rw [if_pos same]
        exact .inr ⟨beq_iff_eq.mpr (congrArg some same), row, rfl⟩
      · rw [if_neg same]
        exact .inl ⟨beq_eq_false_iff_ne.mpr fun eq => same (Option.some.inj eq), rfl⟩

structure Extends (sessionId : String) (chain : List AuditRow) (σ : AuditState) : Prop where
  inv : StoreInv A B σ
  grown : chain <+: written σ.db.rows sessionId

theorem step_extends (sessionId : String) (chain : List AuditRow) (σ : AuditState)
    (event : AuditEvent) (holds : Extends A B sessionId chain σ) :
    Extends A B sessionId chain (σ.step A B event) := by
  refine ⟨step_inv A B σ event holds.inv, ?_⟩
  rcases step_written A B σ event sessionId holds.inv with ⟨-, same⟩ | ⟨-, row, added⟩
  · rw [same]
    exact holds.grown
  · rw [added]
    exact holds.grown.trans (List.prefix_append _ _)

theorem unchanged_iff (σ : AuditState) (between : List AuditEvent) (sessionId : String)
    (inv : StoreInv A B σ) :
    Runs.Guarded (step A B) (fun σ event => !commitsTo sessionId σ event) σ between = true ↔
      written (σ.run A B between).db.rows sessionId = written σ.db.rows sessionId := by
  refine Runs.guarded_iff (step A B) (Extends A B sessionId (written σ.db.rows sessionId))
    (fun σ' => written σ'.db.rows sessionId = written σ.db.rows sessionId)
    (fun σ event => !commitsTo sessionId σ event)
    (step_extends A B sessionId _) ?_ ?_ between σ ⟨inv, List.prefix_rfl⟩ rfl
  · intro σ' event holds same
    rcases step_written A B σ' event sessionId holds.inv with ⟨silent, kept⟩ | ⟨commits, row, added⟩
    · simp [silent, kept, same]
    · simp [commits, added, same]
  · intro σ' event holds after
    rcases step_written A B σ' event sessionId holds.inv with ⟨-, kept⟩ | ⟨-, row, added⟩
    · rw [← kept, after]
    · have longer := holds.grown.length_le
      rw [← after, added, List.length_append, List.length_singleton] at longer
      omega

/-- The head of a longer chain condemns the rows of a shorter one. -/
theorem headMatches_prefix (chain longer : List AuditRow) (grown : chain <+: longer) :
    headMatches chain (headOf longer) = true ↔ longer = chain := by
  constructor
  · intro matched
    rcases ends : longer.getLast? with _ | last
    · rw [List.getLast?_eq_none_iff.mp ends] at grown ⊢
      exact (List.prefix_nil.mp grown).symm
    · rw [headOf, ends, Option.map_some, headMatches, Bool.and_eq_true, beq_iff_eq] at matched
      exact (grown.eq_of_length (Int.natCast_inj.mp matched.1)).symm
  · intro same
    rw [same]
    exact headMatches_headOf chain

theorem verifyAcross_iff (σ : AuditState) (between : List AuditEvent) (sessionId : String)
    (inv : StoreInv A B σ) :
    verifyAcross A B σ between sessionId = true ↔
      Runs.Guarded (step A B) (fun σ event => !commitsTo sessionId σ event) σ between = true := by
  have ends := Runs.run_always (step A B) (Extends A B sessionId (written σ.db.rows sessionId))
    (step_extends A B sessionId _) between σ ⟨inv, List.prefix_rfl⟩
  have intact := inv.kept.chains sessionId
  rw [unchanged_iff A B σ between sessionId inv, verifyAcross, verdict,
    sessionRows_written _ _ intact.ids, intact.verifies, Bool.and_true]
  change headMatches _ ((σ.run A B between).db.heads sessionId) = true ↔ _
  rw [show (σ.run A B between).db.heads sessionId =
    headOf (written (σ.run A B between).db.rows sessionId) from ends.inv.kept.heads sessionId]
  exact headMatches_prefix _ _ ends.grown

end

/-- In every run, a `verify_chain` over Postgres is true exactly when no append to its session is
committed between its two reads. -/
theorem no_false_alarm_iff (A : Auditing) (advisoryKey : String → Int)
    (before between : List AuditEvent) (sessionId : String) :
    verifyAcross A (postgresBackend advisoryKey)
        (start.run A (postgresBackend advisoryKey) before) between sessionId = true ↔
      Runs.Guarded (step A (postgresBackend advisoryKey))
        (fun σ event => !commitsTo sessionId σ event)
        (start.run A (postgresBackend advisoryKey) before) between = true :=
  verifyAcross_iff A _ _ between sessionId (run_inv A _ before start (start_inv A _))

/-! The first append of a session, up to its commit. -/

def firstAppend : List AuditEvent := .arrive loggedCall :: List.replicate 5 (.advance 0)

theorem committed_between_reads :
    ¬∀ (A : Auditing) (advisoryKey : String → Int) (before between : List AuditEvent)
        (sessionId : String),
      verifyAcross A (postgresBackend advisoryKey)
        (start.run A (postgresBackend advisoryKey) before) between sessionId = true := by
  intro hold
  have verified := hold knownAuditing (fun _ => 7) firstAppend [.advance 0] "sess-1"
  exact absurd verified (by decide)

end GenesisAgents
