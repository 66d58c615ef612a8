import GenesisAgents.AuditTamper

/-! Which edits of one row `verify_chain` notices: those of the links, and those that change the text
the row hash is taken of. The error column is not in that text, and a ':' in a field can move its
boundary. -/

namespace GenesisAgents

structure InPlace (row row' : AuditRow) : Prop where
  id : row'.id = row.id
  sessionId : row'.sessionId = row.sessionId

/-- Some column that is not redactable has another value. -/
def Changed (row row' : AuditRow) : Prop :=
  row'.actionType ≠ row.actionType ∨ row'.toolName ≠ row.toolName ∨
    row'.costCents ≠ row.costCents ∨ row'.error ≠ row.error ∨ row'.timestamp ≠ row.timestamp ∨
    row'.prevHash ≠ row.prevHash ∨ row'.rowHash ≠ row.rowHash ∨
    row'.inputsDigest ≠ row.inputsDigest ∨ row'.outputsDigest ≠ row.outputsDigest

theorem written_cons (front back : List AuditRow) (row : AuditRow) (sessionId : String)
    (own : row.sessionId = sessionId) :
    written (front ++ row :: back) sessionId =
      written front sessionId ++ row :: written back sessionId := by
  rw [written, List.filter_append, List.filter_cons_of_pos (by simp [own])]
  rfl

theorem headMatches_edit (front back : List AuditRow) (row row' : AuditRow) (id : row'.id = row.id) :
    headMatches (front ++ row' :: back) (headOf (front ++ row :: back)) = true ↔
      back = [] → row'.rowHash = row.rowHash := by
  rcases back with _ | ⟨next, rest⟩
  · rw [headOf, List.getLast?_concat]
    simp [headMatches, id]
  · have ends (r : AuditRow) : (front ++ r :: next :: rest).getLast? = (next :: rest).getLast? := by
      rw [List.getLast?_append, List.getLast?_cons_cons]
      simp [List.getLast?_cons]
    rw [headOf, ends]
    rcases last : (next :: rest).getLast? with _ | final
    · simp at last
    · simp [headMatches, ends, last]

/-- `verify_chain` after an edit of one row of an intact chain. -/
theorem edited_verifies_iff (A : Auditing) (front back : List AuditRow) (row row' : AuditRow)
    (intact : Intact A (front ++ row :: back)) (id : row'.id = row.id)
    (collisionFree : A.sha256 row.payload = A.sha256 row'.payload → row.payload = row'.payload) :
    (headMatches (front ++ row' :: back) (headOf (front ++ row :: back)) &&
        rowsVerify A "" (front ++ row' :: back)) = true ↔
      row'.prevHash = row.prevHash ∧ row'.rowHash = row.rowHash ∧ row'.payload = row.payload := by
  have linked := (HashChain.linked_append _ _ "" front (row :: back)).mp intact.linked
  have hashed := intact.hashed row (by simp)
  rw [Bool.and_eq_true, headMatches_edit front back row row' id, rowsVerify_iff,
    HashChain.linked_append]
  constructor
  · rintro ⟨terminal, ⟨-, joins, follows⟩, hashes⟩
    have hash : row'.rowHash = row.rowHash := by
      rcases back with _ | ⟨next, rest⟩
      · exact terminal rfl
      · exact follows.1.symm.trans linked.2.2.1
    refine ⟨joins.trans linked.2.1.symm, hash, (collisionFree ?_).symm⟩
    rw [hashed, hashes row' (by simp), hash]
  · rintro ⟨prev, hash, payload⟩
    refine ⟨fun _ => hash, ⟨linked.1, prev.trans linked.2.1, ?_⟩, ?_⟩
    · rw [hash]
      exact linked.2.2
    · intro other member
      rcases List.mem_append.mp member with early | late
      · exact intact.hashed other (List.mem_append_left _ early)
      rcases List.mem_cons.mp late with rfl | late
      · rw [payload, hashed, hash]
      · exact intact.hashed other (List.mem_append_right _ (List.mem_cons_of_mem _ late))

/-- An edit of one logged row is detected exactly when it changes a link or the hashed text. -/
theorem edit_detected_iff (A : Auditing) (calls : List LogCall) (front back : List AuditRow)
    (row row' : AuditRow)
    (logged : (Runs.run (AuditDb.step A) .empty calls).rows = front ++ row :: back)
    (edit : InPlace row row')
    (collisionFree : A.sha256 row.payload = A.sha256 row'.payload → row.payload = row'.payload) :
    verifyChain A { Runs.run (AuditDb.step A) .empty calls with rows := front ++ row' :: back }
        row.sessionId = false ↔
      row'.prevHash ≠ row.prevHash ∨ row'.rowHash ≠ row.rowHash ∨ row'.payload ≠ row.payload := by
  have kept := run_kept A calls
  generalize Runs.run (AuditDb.step A) .empty calls = db at *
  have intact := kept.chains row.sessionId
  have head := kept.heads row.sessionId
  rw [logged, written_cons front back row _ rfl] at intact head
  have edited := written_cons front back row' row.sessionId edit.sessionId
  have sorted : (written (front ++ row' :: back) row.sessionId).Pairwise
      fun earlier later => earlier.id ≤ later.id := by
    rw [edited]
    have ids := intact.ids
    simp only [List.pairwise_append, List.pairwise_cons, List.forall_mem_cons, edit.id] at ids ⊢
    exact ids
  have verdict := edited_verifies_iff A _ _ row row' intact edit.id collisionFree
  rw [verifyChain, sessionRows_written _ _ sorted, edited, head, ← Bool.not_eq_true, verdict]
  tauto

/-! An edit that leaves the hashed text alone. -/

def blamelessRow : AuditRow := { loggedRow with error := "approved by the controller" }

set_option maxRecDepth 20000 in
theorem loggedCall_rows :
    (Runs.run (AuditDb.step knownAuditing) .empty [loggedCall]).rows = [loggedRow] := rfl

theorem error_edit_undetected :
    ¬∀ (A : Auditing) (calls : List LogCall) (front back : List AuditRow) (row row' : AuditRow),
      (Runs.run (AuditDb.step A) .empty calls).rows = front ++ row :: back → InPlace row row' →
      (A.sha256 row.payload = A.sha256 row'.payload → row.payload = row'.payload) →
      Changed row row' →
      verifyChain A { Runs.run (AuditDb.step A) .empty calls with rows := front ++ row' :: back }
        row.sessionId = false := by
  intro hold
  have changed : Changed loggedRow blamelessRow := .inr (.inr (.inr (.inl (by decide))))
  have detected := hold knownAuditing [loggedCall] [] [] loggedRow blamelessRow loggedCall_rows
    ⟨rfl, rfl⟩ (fun _ => rfl) changed
  have kept := run_kept knownAuditing [loggedCall]
  have chain := kept.chains "sess-1"
  have head := kept.heads "sess-1"
  rw [loggedCall_rows] at chain head
  have verified := (edited_verifies_iff knownAuditing [] [] loggedRow blamelessRow chain rfl
    (fun _ => rfl)).mpr ⟨rfl, rfl, rfl⟩
  have session : loggedRow.sessionId = "sess-1" := rfl
  have rows : sessionRows ([] ++ blamelessRow :: []) "sess-1" = [blamelessRow] := rfl
  rw [verifyChain, session, head, rows] at detected
  exact absurd (detected.symm.trans verified) (by decide)

theorem error_edit_verdict :
    verifyChain knownAuditing { Runs.run (AuditDb.step knownAuditing) .empty [loggedCall] with
        rows := [] ++ blamelessRow :: [] } loggedRow.sessionId = false ↔
      blamelessRow.prevHash ≠ loggedRow.prevHash ∨ blamelessRow.rowHash ≠ loggedRow.rowHash ∨
        blamelessRow.payload ≠ loggedRow.payload :=
  edit_detected_iff knownAuditing [loggedCall] [] [] loggedRow blamelessRow loggedCall_rows
    ⟨rfl, rfl⟩ (fun _ => rfl)

end GenesisAgents
