import GenesisAgents.AuditChain
import GenesisAgents.Library.DecimalText
import GenesisAgents.Library.Delimited

/-! What an edit of the audit rows can hide from `verify_chain` while the head of the chain stays:
nothing that the row hash covers. -/

namespace GenesisAgents

open Auditing

/-! The printed fields can be told apart. -/

theorem toString_free (n : Int) : ':' ∉ (toString n).toList := by
  cases n with
  | ofNat n => exact DecimalText.repr_free n ':' (by decide)
  | negSucc n =>
    change ':' ∉ ("-" ++ (n + 1).repr).toList
    rw [String.toList_append, List.mem_append, not_or]
    exact ⟨by decide, DecimalText.repr_free (n + 1) ':' (by decide)⟩

theorem toString_inj (m n : Int) (same : toString m = toString n) : m = n := by
  have minus (k : Nat) : '-' ∉ k.repr.toList := DecimalText.repr_free k '-' (by decide)
  cases m with
  | ofNat m =>
    cases n with
    | ofNat n => exact congrArg Int.ofNat (DecimalText.repr_inj m n same)
    | negSucc n =>
      have starts : '-' ∈ (toString (Int.negSucc n)).toList := by
        change '-' ∈ ("-" ++ (n + 1).repr).toList
        rw [String.toList_append]
        exact List.mem_append_left _ (by decide)
      rw [← same] at starts
      exact absurd starts (minus m)
  | negSucc m =>
    cases n with
    | ofNat n =>
      have starts : '-' ∈ (toString (Int.negSucc m)).toList := by
        change '-' ∈ ("-" ++ (m + 1).repr).toList
        rw [String.toList_append]
        exact List.mem_append_left _ (by decide)
      rw [same] at starts
      exact absurd starts (minus n)
    | negSucc n =>
      have digits : "-" ++ (m + 1).repr = "-" ++ (n + 1).repr := same
      have equal := DecimalText.repr_inj _ _ (String.append_right_inj "-" |>.mp digits)
      rw [Nat.succ.inj equal]

theorem timestamp_eq (t t' : Timestamp) (same : t.repr = t'.repr) : t = t' := by
  cases t
  cases t'
  cases same
  rfl

structure SameEntry (row row' : AuditRow) : Prop where
  id : row.id = row'.id
  actionType : row.actionType = row'.actionType
  toolName : row.toolName = row'.toolName
  costCents : row.costCents = row'.costCents
  timestamp : row.timestamp = row'.timestamp
  prevHash : row.prevHash = row'.prevHash
  rowHash : row.rowHash = row'.rowHash

def sealedFields (action tool : String) (cost : Int) (time : Timestamp)
    (prev inputs outputs : String) : List (List Char) :=
  [action.toList, tool.toList, (toString cost).toList, time.repr.toList, prev.toList, inputs.toList,
   outputs.toList]

theorem payload_toList (id : Int) (sessionId action tool : String) (cost : Int) (time : Timestamp)
    (prev inputs outputs : String) :
    (payload id sessionId action tool cost time prev inputs outputs).toList =
      (toString id).toList ++ ':' :: (sessionId.toList ++ ':' ::
        [':'].intercalate (sealedFields action tool cost time prev inputs outputs)) := by
  have colon : ":".toList = [':'] := rfl
  rw [payload, String.toList_intercalate, colon]
  simp only [List.map_cons, List.map_nil]
  simp only [List.intercalate_cons_cons, List.append_assoc]
  rfl

/-- A payload whose fields are free of the delimiter is no other payload of the session. -/
theorem payload_inj (sessionId : String) (id id' cost cost' : Int) (time time' : Timestamp)
    (action tool prev inputs outputs action' tool' prev' inputs' outputs' : String)
    (free : ∀ field ∈ sealedFields action tool cost time prev inputs outputs, ':' ∉ field)
    (same : payload id sessionId action tool cost time prev inputs outputs =
      payload id' sessionId action' tool' cost' time' prev' inputs' outputs') :
    id = id' ∧ action = action' ∧ tool = tool' ∧ cost = cost' ∧ time = time' ∧ prev = prev' := by
  have chars := congrArg String.toList same
  rw [payload_toList, payload_toList] at chars
  obtain ⟨ids, rest⟩ := Delimited.split_unique ':' _ _ _ _ (toString_free id) (toString_free id')
    chars
  have fields := (List.cons.inj (List.append_cancel_left rest)).2
  have equal := Delimited.intercalate_inj ':' _
    (sealedFields action' tool' cost' time' prev' inputs' outputs') free rfl fields
  simp only [sealedFields, List.cons.injEq, String.toList_inj] at equal
  obtain ⟨actions, tools, costs, times, prevs, -⟩ := equal
  exact ⟨toString_inj _ _ (String.toList_inj.mp ids), actions, tools, toString_inj _ _ costs,
    timestamp_eq _ _ times, prevs⟩

/-! What `log` writes -/

/-- A row as `log` writes it: of the second schema, sealed, with fields free of the delimiter. -/
structure Sealed (A : Auditing) (row : AuditRow) : Prop where
  hash : row.rowHash = A.sha256 row.payload
  digests : ∃ inputs outputs, row.inputsDigest = some inputs ∧ row.outputsDigest = some outputs ∧
    ∀ field ∈ sealedFields row.actionType row.toolName row.costCents row.timestamp row.prevHash
      inputs outputs, ':' ∉ field

/-- What an edited row agrees on with a sealed row of its session whose payload it has. -/
theorem agree_of_payload (row row' : AuditRow) (A : Auditing) (sealed : Sealed A row)
    (session : row'.sessionId = row.sessionId) (same : row.payload = row'.payload)
    (hashes : row.rowHash = row'.rowHash) : SameEntry row row' := by
  obtain ⟨inputs, outputs, v2, stored, free⟩ := sealed.digests
  have original : row.payload = payload row.id row.sessionId row.actionType row.toolName
      row.costCents row.timestamp row.prevHash inputs outputs := by
    rw [AuditRow.payload, v2, stored]
    rfl
  have edited : ∃ x y, row'.payload = payload row'.id row.sessionId row'.actionType row'.toolName
      row'.costCents row'.timestamp row'.prevHash x y := by
    rw [AuditRow.payload, session]
    rcases row'.inputsDigest with _ | digest
    · exact ⟨_, _, rfl⟩
    · exact ⟨_, _, rfl⟩
  obtain ⟨x, y, edited⟩ := edited
  rw [original, edited] at same
  obtain ⟨ids, actions, tools, costs, times, prevs⟩ := payload_inj row.sessionId _ _ _ _ _ _ _ _ _ _ _
    _ _ _ _ _ free same
  exact ⟨ids, actions, tools, costs, times, prevs, hashes⟩

theorem digest_free (A : Auditing) (hex : ∀ text, ':' ∉ (A.sha256 text).toList) (text : String) :
    ':' ∉ (A.digest text).toList := by
  rw [digest]
  split
  · decide
  · exact hex text

theorem sessionRows_member (rows : List AuditRow) (sessionId : String) (row : AuditRow) :
    row ∈ sessionRows rows sessionId ↔ row ∈ rows ∧ row.sessionId = sessionId := by
  rw [sessionRows, List.mem_insertionSort, List.mem_filter, decide_eq_true_iff]

theorem lastRowHash_free (A : Auditing) (hex : ∀ text, ':' ∉ (A.sha256 text).toList) (db : AuditDb)
    (sessionId : String) (sealed : ∀ row ∈ db.rows, Sealed A row) :
    ':' ∉ (db.lastRowHash sessionId).toList := by
  rw [AuditDb.lastRowHash]
  rcases last : (sessionRows db.rows sessionId).getLast? with _ | row
  · decide
  · have member := (sessionRows_member _ _ _).mp (List.mem_of_getLast? last)
    rw [Option.map_some, Option.getD_some, (sealed row member.1).hash]
    exact hex _

theorem newRow_sealed (A : Auditing) (hex : ∀ text, ':' ∉ (A.sha256 text).toList) (db : AuditDb)
    (call : LogCall) (inputsJson outputsJson : String) (sealed : ∀ row ∈ db.rows, Sealed A row)
    (plainAction : ':' ∉ call.actionType.toList) (plainTool : ':' ∉ call.toolName.toList) :
    Sealed A (db.newRow A call inputsJson outputsJson) := by
  refine ⟨rfl, A.digest inputsJson, A.digest outputsJson, rfl, rfl, ?_⟩
  intro field member
  simp only [sealedFields, List.mem_cons, List.not_mem_nil, or_false] at member
  rcases member with rfl | rfl | rfl | rfl | rfl | rfl | rfl
  · exact plainAction
  · exact plainTool
  · exact toString_free _
  · exact call.timestamp.plain
  · exact lastRowHash_free A hex db call.sessionId sealed
  · exact digest_free A hex inputsJson
  · exact digest_free A hex outputsJson

theorem run_sealed (A : Auditing) (hex : ∀ text, ':' ∉ (A.sha256 text).toList)
    (calls : List LogCall)
    (plain : ∀ call ∈ calls, ':' ∉ call.actionType.toList ∧ ':' ∉ call.toolName.toList) :
    ∀ row ∈ (Runs.run (AuditDb.step A) .empty calls).rows, Sealed A row := by
  refine Runs.run_of_events (AuditDb.step A) (fun db => ∀ row ∈ db.rows, Sealed A row)
    (fun call => ':' ∉ call.actionType.toList ∧ ':' ∉ call.toolName.toList) ?_ calls plain _
    (by simp [AuditDb.empty])
  intro db call free sealed
  rcases logStep_cases A db call with same | ⟨inputsJson, outputsJson, appended⟩
  · rwa [same]
  · rw [appended]
    intro row member
    rcases List.mem_append.mp member with earlier | last
    · exact sealed row earlier
    · rw [List.mem_singleton.mp last]
      exact newRow_sealed A hex db call inputsJson outputsJson sealed free.1 free.2

/-- A chain that matches the head of another has its length and its end. -/
theorem headMatches_tip (rows rows' : List AuditRow) (last : AuditRow)
    (ends : rows.getLast? = some last)
    (matched : headMatches rows' (some ⟨last.id, last.rowHash, rows.length⟩) = true) :
    rows.length = rows'.length ∧
      HashChain.tip AuditRow.rowHash "" rows = HashChain.tip AuditRow.rowHash "" rows' := by
  simp only [headMatches, Bool.and_eq_true, beq_iff_eq, Int.natCast_inj] at matched
  obtain ⟨lengths, terminal⟩ := matched
  refine ⟨lengths.symm, ?_⟩
  rw [HashChain.tip_eq_getLast, HashChain.tip_eq_getLast, ends]
  rcases ends' : rows'.getLast? with _ | last'
  · rw [List.getLast?_eq_none_iff] at ends'
    rw [ends', List.length_nil, eq_comm, List.length_eq_zero_iff] at lengths
    simp [lengths] at ends
  · simp only [ends', Bool.and_eq_true, beq_iff_eq] at terminal
    simp [terminal.1]

/-- Whatever is done to the rows, if `verify_chain` accepts them under the recorded head, they are,
position by position, the rows that were written. -/
theorem chain_tamper_evident (A : Auditing) (calls : List LogCall) (sessionId : String)
    (edited : List AuditRow) (hex : ∀ text, ':' ∉ (A.sha256 text).toList)
    (plain : ∀ call ∈ calls, ':' ∉ call.actionType.toList ∧ ':' ∉ call.toolName.toList)
    (logged : ((Runs.run (AuditDb.step A) .empty calls).heads sessionId).isSome = true)
    (collisionFree : ∀ row ∈ (Runs.run (AuditDb.step A) .empty calls).rows, ∀ row' ∈ edited,
      A.sha256 row.payload = A.sha256 row'.payload → row.payload = row'.payload)
    (verified : verifyChain A { Runs.run (AuditDb.step A) .empty calls with rows := edited }
      sessionId = true) :
    List.Forall₂ SameEntry
      (sessionRows (Runs.run (AuditDb.step A) .empty calls).rows sessionId)
      (sessionRows edited sessionId) := by
  have kept := run_kept A calls
  have sealed := run_sealed A hex calls plain
  generalize Runs.run (AuditDb.step A) .empty calls = db at *
  have chain := kept.chains sessionId
  rw [sessionRows_written _ _ chain.ids]
  rw [verifyChain, Bool.and_eq_true] at verified
  obtain ⟨head, verified⟩ := verified
  obtain ⟨linked, hashed⟩ := (rowsVerify_iff A "" _).mp verified
  have recorded := kept.heads sessionId
  rw [headOf] at recorded
  rcases ends : (written db.rows sessionId).getLast? with _ | last
  · rw [recorded, ends] at logged
    contradiction
  · rw [ends, Option.map_some] at recorded
    have matched : headMatches (sessionRows edited sessionId)
        (some ⟨last.id, last.rowHash, (written db.rows sessionId).length⟩) = true := recorded ▸ head
    obtain ⟨lengths, tips⟩ := headMatches_tip _ _ last ends matched
    refine (HashChain.agree_of_tip AuditRow.prevHash AuditRow.rowHash SameEntry _ _ "" "" ?_ lengths
      chain.linked linked tips).1
    intro row member row' member' hashes
    obtain ⟨inside, session⟩ := (mem_written _ _ _).mp member
    obtain ⟨inside', session'⟩ := (sessionRows_member edited sessionId row').mp member'
    have payloads : row.payload = row'.payload := by
      refine collisionFree row inside row' inside' ?_
      rw [← (sealed row inside).hash, hashes, hashed row' member']
    have entry := agree_of_payload row row' A (sealed row inside) (session'.trans session.symm)
      payloads hashes
    exact ⟨entry, entry.prevHash⟩

/-! One logged call, and the same row with its raw texts redacted. -/

def inputsSha : String := "44136fa355b3678a1146ad16f7e8649e94fb4fc21fe77e8310c060f61caaff8a"
def outputsSha : String := "2689367b205c16ce32ed4200942b8b8b1e262dfc70d9bc9fbc77c49699a4f1df"
def rowSha : String := "88204cc455bd22ca81c9e6001f9fc28e26fdc634a1997da55ca9e1b9948cc71c"

def knownAuditing : Auditing where
  sha256 text :=
    if text = "\x7b\x7d" then inputsSha
    else if text = "ok" then outputsSha
    else if text = "1:sess-1:tool_call:send_email:1:1767225600.0::" ++ inputsSha ++ ":" ++ outputsSha
    then rowSha
    else ""
  lower := id
  redactText := id
  refusesText _ := false

def loggedCall : LogCall :=
  { sessionId := "sess-1", actionType := "tool_call", toolName := "send_email", inputs := .dict []
    outputs := .str "ok", costCents := 1, error := "", timestamp := ⟨"1767225600.0", by decide⟩
    skippedIds := 0 }

def loggedRow : AuditRow :=
  { id := 1, sessionId := "sess-1", actionType := "tool_call", toolName := "send_email"
    inputsJson := "\x7b\x7d", outputsJson := "ok", costCents := 1, error := ""
    timestamp := ⟨"1767225600.0", by decide⟩, prevHash := "", rowHash := rowSha
    inputsDigest := some inputsSha, outputsDigest := some outputsSha, schemaVersion := 2 }

def redactedRow : AuditRow :=
  { loggedRow with inputsJson := "[REDACTED]", outputsJson := "[REDACTED]" }

set_option maxRecDepth 20000 in
theorem redacted_row_agrees :
    List.Forall₂ SameEntry
      (sessionRows (Runs.run (AuditDb.step knownAuditing) .empty [loggedCall]).rows "sess-1")
      (sessionRows [redactedRow] "sess-1") := by
  have rows : (Runs.run (AuditDb.step knownAuditing) .empty [loggedCall]).rows = [loggedRow] := rfl
  refine chain_tamper_evident knownAuditing [loggedCall] "sess-1" [redactedRow] ?_ ?_ rfl ?_ rfl
  · intro text
    simp only [knownAuditing]
    split_ifs <;> decide
  · intro call member
    obtain rfl := List.mem_singleton.mp member
    decide
  · intro row member row' member' _
    rw [rows] at member
    obtain rfl := List.mem_singleton.mp member
    obtain rfl := List.mem_singleton.mp member'
    rfl

end GenesisAgents
