import GenesisAgents.AuditLog
import GenesisAgents.Library.HashChain

/-! The chain of one session, as it is written and as `verify_chain` reads it, and what every run of
`log` keeps of it. -/

namespace GenesisAgents

def written (rows : List AuditRow) (sessionId : String) : List AuditRow :=
  rows.filter (·.sessionId = sessionId)

theorem written_append (rows : List AuditRow) (row : AuditRow) (sessionId : String) :
    written (rows ++ [row]) sessionId =
      if row.sessionId = sessionId then written rows sessionId ++ [row]
      else written rows sessionId := by
  rw [written, List.filter_append]
  by_cases same : row.sessionId = sessionId <;> simp [written, same]

theorem mem_written (rows : List AuditRow) (sessionId : String) (row : AuditRow) :
    row ∈ written rows sessionId ↔ row ∈ rows ∧ row.sessionId = sessionId := by
  rw [written, List.mem_filter, decide_eq_true_iff]

theorem sessionRows_written (rows : List AuditRow) (sessionId : String)
    (ids : (written rows sessionId).Pairwise fun row later => row.id ≤ later.id) :
    sessionRows rows sessionId = written rows sessionId := ids.insertionSort_eq

def headOf (chain : List AuditRow) : Option ChainHead :=
  chain.getLast?.map fun last => ⟨last.id, last.rowHash, chain.length⟩

theorem headMatches_headOf (chain : List AuditRow) : headMatches chain (headOf chain) = true := by
  rw [headOf]
  rcases ends : chain.getLast? with _ | last
  · rfl
  · simp [headMatches, ends]

theorem headOf_append (chain : List AuditRow) (row : AuditRow) :
    headOf (chain ++ [row]) = some (AuditDb.nextHead (headOf chain) row) := by
  have counted : ((headOf chain).map ChainHead.rowCount).getD 0 = chain.length := by
    rcases chain with _ | ⟨first, rest⟩
    · rfl
    · simp [headOf, List.getLast?_cons]
  rw [AuditDb.nextHead, counted, headOf, List.getLast?_concat]
  simp

theorem rowsVerify_iff (A : Auditing) (expectedPrev : String) (rows : List AuditRow) :
    rowsVerify A expectedPrev rows = true ↔
      HashChain.Linked AuditRow.prevHash AuditRow.rowHash expectedPrev rows ∧
        ∀ row ∈ rows, A.sha256 row.payload = row.rowHash := by
  induction rows generalizing expectedPrev with
  | nil => simp [rowsVerify, HashChain.Linked]
  | cons row rest later =>
    rw [rowsVerify, Bool.and_eq_true, Bool.and_eq_true, beq_iff_eq, beq_iff_eq, later,
      HashChain.Linked, List.forall_mem_cons]
    tauto

/-- A chain as the appends of one session leave it. -/
structure Intact (A : Auditing) (chain : List AuditRow) : Prop where
  ids : chain.Pairwise fun row later => row.id ≤ later.id
  linked : HashChain.Linked AuditRow.prevHash AuditRow.rowHash "" chain
  hashed : ∀ row ∈ chain, A.sha256 row.payload = row.rowHash

namespace Intact

variable {A : Auditing} {chain : List AuditRow}

theorem nil : Intact A [] := ⟨.nil, trivial, by simp⟩

theorem append (intact : Intact A chain) (row : AuditRow) (above : ∀ earlier ∈ chain, earlier.id ≤ row.id)
    (joins : row.prevHash = HashChain.tip AuditRow.rowHash "" chain)
    (hashed : A.sha256 row.payload = row.rowHash) : Intact A (chain ++ [row]) := by
  refine ⟨?_, HashChain.linked_append_singleton _ _ "" chain row intact.linked joins, ?_⟩
  · refine List.pairwise_append.mpr ⟨intact.ids, List.pairwise_singleton _ _, ?_⟩
    intro earlier member later same
    rw [List.mem_singleton.mp same]
    exact above earlier member
  · intro other member
    rcases List.mem_append.mp member with earlier | same
    · exact intact.hashed other earlier
    · rw [List.mem_singleton.mp same]
      exact hashed

theorem verifies (intact : Intact A chain) : rowsVerify A "" chain = true :=
  (rowsVerify_iff A "" chain).mpr ⟨intact.linked, intact.hashed⟩

end Intact

theorem lastRowHash_tip (db : AuditDb) (sessionId : String)
    (ids : (written db.rows sessionId).Pairwise fun row later => row.id ≤ later.id) :
    db.lastRowHash sessionId = HashChain.tip AuditRow.rowHash "" (written db.rows sessionId) := by
  rw [AuditDb.lastRowHash, sessionRows_written _ _ ids, HashChain.tip_eq_getLast]

/-- What every run of `log` keeps. -/
structure Kept (A : Auditing) (db : AuditDb) : Prop where
  chains : ∀ sessionId, Intact A (written db.rows sessionId)
  below : ∀ row ∈ db.rows, row.id < db.nextId
  heads : ∀ sessionId, db.heads sessionId = headOf (written db.rows sessionId)

theorem kept_empty (A : Auditing) : Kept A .empty :=
  ⟨fun _ => .nil, by simp [AuditDb.empty], fun _ => rfl⟩

theorem append_kept (A : Auditing) (db : AuditDb) (row : AuditRow) (kept : Kept A db)
    (fresh : db.nextId ≤ row.id) (joins : row.prevHash = db.lastRowHash row.sessionId)
    (hashed : A.sha256 row.payload = row.rowHash) : Kept A (db.append row) := by
  have above : ∀ earlier ∈ db.rows, earlier.id < row.id := fun earlier member =>
    Int.lt_of_lt_of_le (kept.below earlier member) fresh
  refine ⟨?_, ?_, ?_⟩
  · intro sessionId
    change Intact A (written (db.rows ++ [row]) sessionId)
    rw [written_append]
    split
    · rename_i same
      subst same
      refine (kept.chains _).append row ?_ ?_ hashed
      · exact fun earlier member => (above earlier ((mem_written _ _ _).mp member).1).le
      · rw [joins, lastRowHash_tip db _ (kept.chains _).ids]
    · exact kept.chains sessionId
  · intro other member
    rcases List.mem_append.mp member with earlier | same
    · have before := above other earlier
      change other.id < row.id + 1
      omega
    · rw [List.mem_singleton.mp same]
      exact Int.lt_succ _
  · intro sessionId
    change (if sessionId = row.sessionId then some (AuditDb.nextHead (db.heads sessionId) row)
      else db.heads sessionId) = headOf (written (db.rows ++ [row]) sessionId)
    rw [written_append]
    by_cases same : row.sessionId = sessionId
    · rw [if_pos same, if_pos same.symm, headOf_append, kept.heads]
    · rw [if_neg same, if_neg (Ne.symm same), kept.heads]

/-- A successful call of `log` appends one row, that of its arguments. -/
theorem log_some (A : Auditing) (db next : AuditDb) (call : LogCall)
    (logged : db.log A call = some next) : ∃ inputsJson outputsJson,
      AuditDb.rowTexts A call = some (inputsJson, outputsJson) ∧
      next = db.append (db.newRow A call inputsJson outputsJson) := by
  rcases Option.map_eq_some_iff.mp logged with ⟨texts, written, appended⟩
  exact ⟨texts.1, texts.2, written, appended.symm⟩

theorem log_isSome (A : Auditing) (db : AuditDb) (call : LogCall) :
    (db.log A call).isSome = isRecorded A call := by
  rw [AuditDb.log, Option.isSome_map, isRecorded]

/-- What a step of `log` keeps follows from what an append keeps. -/
theorem logStep_cases (A : Auditing) (db : AuditDb) (call : LogCall) :
    db.step A call = db ∨ ∃ inputsJson outputsJson,
      db.step A call = db.append (db.newRow A call inputsJson outputsJson) := by
  rw [AuditDb.step]
  rcases logged : db.log A call with _ | next
  · exact .inl rfl
  · rcases log_some A db next call logged with ⟨inputsJson, outputsJson, -, appended⟩
    exact .inr ⟨inputsJson, outputsJson, appended⟩

theorem step_kept (A : Auditing) (db : AuditDb) (call : LogCall) (kept : Kept A db) :
    Kept A (db.step A call) := by
  rcases logStep_cases A db call with same | ⟨inputsJson, outputsJson, appended⟩
  · rwa [same]
  · rw [appended]
    exact append_kept A db _ kept (Int.le_add_of_nonneg_right (Int.natCast_nonneg _)) rfl rfl

theorem run_kept (A : Auditing) (calls : List LogCall) :
    Kept A (Runs.run (AuditDb.step A) .empty calls) :=
  Runs.run_always (AuditDb.step A) (Kept A) (step_kept A) calls _ (kept_empty A)

theorem kept_verifies (A : Auditing) (db : AuditDb) (kept : Kept A db) (sessionId : String) :
    verifyChain A db sessionId = true := by
  rw [verifyChain, sessionRows_written _ _ (kept.chains sessionId).ids, kept.heads,
    headMatches_headOf, (kept.chains sessionId).verifies]
  rfl

end GenesisAgents
