import GenesisAgents.AuditStore

/-! Every interleaving of appends, with failures at any statement, leaves chains that verify. -/

namespace GenesisAgents

open AuditState

section

variable (A : Auditing) (B : AuditBackend)

/-- An inserted row continues the chain of its session, past every row under its lock. -/
structure Positioned (db : AuditDb) (row : AuditRow) (counter : Int) : Prop where
  joins : row.prevHash = HashChain.tip AuditRow.rowHash "" (written db.rows row.sessionId)
  counted : counter ≤ row.id
  drawn : row.id < db.nextId
  above : ∀ other ∈ db.rows, B.lockKey other.sessionId = B.lockKey row.sessionId →
    other.id < counter

/-- What a call of `log` knows is true of the committed store. -/
def InFlight (db : AuditDb) : AppendPhase → Prop
  | .linked entry prevHash =>
    prevHash = HashChain.tip AuditRow.rowHash "" (written db.rows entry.call.sessionId)
  | .inserted entry row counter =>
    row = pendingRow A entry row.id row.prevHash ∧ Positioned B db row counter
  | .hashed entry row counter =>
    row = sealRow A (pendingRow A entry row.id row.prevHash) ∧ Positioned B db row counter
  | .headed entry row counter head =>
    row = sealRow A (pendingRow A entry row.id row.prevHash) ∧ Positioned B db row counter ∧
      head = AuditDb.nextHead (db.heads row.sessionId) row
  | .committed entry row => row = sealRow A (pendingRow A entry row.id row.prevHash)
  | _ => True

def AppendPhase.key? (phase : AppendPhase) : Option Int := phase.session?.map B.lockKey

structure StoreInv (σ : AuditState) : Prop where
  kept : Kept A σ.db
  flight : ∀ (i : Nat) (phase : AppendPhase), σ.appends[i]? = some phase → InFlight A B σ.db phase
  apart : CallTable.Apart (AppendPhase.key? B) σ.appends
  ledger : CallTable.Ledger AppendPhase.committed? σ.appends σ.commits σ.db.rows

theorem start_inv : StoreInv A B start :=
  ⟨kept_empty A, by simp [start], CallTable.apart_nil _, CallTable.ledger_nil _⟩

/-! What the other calls know survives when their session is left alone. -/

structure SameSession (db db' : AuditDb) (sessionId : String) : Prop where
  chain : written db'.rows sessionId = written db.rows sessionId
  head : db'.heads sessionId = db.heads sessionId
  counter : db.nextId ≤ db'.nextId
  rows : ∀ row ∈ db'.rows, B.lockKey row.sessionId = B.lockKey sessionId → row ∈ db.rows

theorem positioned_frame (db db' : AuditDb) (row : AuditRow) (counter : Int)
    (same : SameSession B db db' row.sessionId) (holds : Positioned B db row counter) :
    Positioned B db' row counter where
  joins := by rw [same.chain, holds.joins]
  counted := holds.counted
  drawn := Int.lt_of_lt_of_le holds.drawn same.counter
  above := fun other member key => holds.above other (same.rows other member key) key

theorem pendingRow_session (entry : AuditEntry) (row : AuditRow)
    (shape : row = pendingRow A entry row.id row.prevHash) :
    row.sessionId = entry.call.sessionId := by
  rw [shape]
  rfl

theorem sealedRow_session (entry : AuditEntry) (row : AuditRow)
    (shape : row = sealRow A (pendingRow A entry row.id row.prevHash)) :
    row.sessionId = entry.call.sessionId := by
  rw [shape]
  rfl

theorem inFlight_frame (db db' : AuditDb) (phase : AppendPhase)
    (same : ∀ sessionId, phase.session? = some sessionId → SameSession B db db' sessionId)
    (holds : InFlight A B db phase) : InFlight A B db' phase := by
  cases phase with
  | encoded entry => trivial
  | locked entry => trivial
  | raised => trivial
  | committed entry row => exact holds
  | linked entry prevHash =>
    have own := same entry.call.sessionId rfl
    rw [InFlight, own.chain]
    exact holds
  | inserted entry row counter =>
    have own := same entry.call.sessionId rfl
    rw [← pendingRow_session A entry row holds.1] at own
    exact ⟨holds.1, positioned_frame B db db' row counter own holds.2⟩
  | hashed entry row counter =>
    have own := same entry.call.sessionId rfl
    rw [← sealedRow_session A entry row holds.1] at own
    exact ⟨holds.1, positioned_frame B db db' row counter own holds.2⟩
  | headed entry row counter head =>
    have own := same entry.call.sessionId rfl
    rw [← sealedRow_session A entry row holds.1] at own
    refine ⟨holds.1, positioned_frame B db db' row counter own holds.2.1, ?_⟩
    rw [own.head]
    exact holds.2.2

theorem move_inv (σ : AuditState) (i : Nat) (old new : AppendPhase) (nextId : Int)
    (inv : StoreInv A B σ) (present : σ.appends[i]? = some old) (was_open : old.committed? = none)
    (still_open : new.committed? = none) (below : ∀ row ∈ σ.db.rows, row.id < nextId)
    (keys : ∀ key, new.key? B = some key →
      old.key? B = some key ∨ ∀ phase ∈ σ.appends, phase.key? B ≠ some key)
    (others : ∀ (j : Nat) (phase : AppendPhase), i ≠ j → σ.appends[j]? = some phase →
      InFlight A B { σ.db with nextId := nextId } phase)
    (own : InFlight A B { σ.db with nextId := nextId } new) :
    StoreInv A B { σ.move i new with db := { σ.db with nextId := nextId } } := by
  refine ⟨⟨inv.kept.chains, below, inv.kept.heads⟩, ?_, ?_, ?_⟩
  · intro j phase found
    rcases CallTable.getElem?_set_cases σ.appends i j new phase found with ⟨-, moved⟩ | ⟨off, found⟩
    · rw [moved]
      exact own
    · exact others j phase off found
  · exact CallTable.apart_set _ σ.appends i old new inv.apart present keys
  · exact CallTable.ledger_set _ σ.appends σ.commits _ i old new inv.ledger present was_open still_open

theorem encode_idle (call : LogCall) : (encode A call).key? B = none ∧
    (encode A call).committed? = none ∧ ∀ db, InFlight A B db (encode A call) := by
  rw [encode]
  split
  · exact ⟨rfl, rfl, fun _ => trivial⟩
  · exact ⟨rfl, rfl, fun _ => trivial⟩

theorem arrive_inv (σ : AuditState) (call : LogCall) (inv : StoreInv A B σ) :
    StoreInv A B (σ.arrive A call) := by
  rcases encode_idle A B call with ⟨silent, running, flight⟩
  refine ⟨inv.kept, ?_, ?_, ?_⟩
  · intro j other found
    rcases CallTable.getElem?_concat_cases σ.appends j _ other found with ⟨-, last⟩ | found
    · rw [last]
      exact flight σ.db
    · exact inv.flight j other found
  · exact CallTable.apart_concat _ σ.appends _ inv.apart silent
  · exact CallTable.ledger_concat _ σ.appends σ.commits _ _ inv.ledger running

theorem progress_inv (σ : AuditState) (i : Nat) (old new : AppendPhase) (inv : StoreInv A B σ)
    (present : σ.appends[i]? = some old) (was_open : old.committed? = none)
    (still_open : new.committed? = none)
    (keys : ∀ key, new.key? B = some key →
      old.key? B = some key ∨ ∀ phase ∈ σ.appends, phase.key? B ≠ some key)
    (own : InFlight A B σ.db new) : StoreInv A B (σ.move i new) :=
  move_inv A B σ i old new σ.db.nextId inv present was_open still_open inv.kept.below keys
    (fun j phase _ found => inv.flight j phase found) own

theorem isFree_iff (σ : AuditState) (key : Int) :
    σ.isFree B key = true ↔ ∀ phase ∈ σ.appends, phase.key? B ≠ some key := by
  rw [isFree, List.all_eq_true]
  simp only [bne_iff_ne, AppendPhase.key?]

theorem insert_inv (σ : AuditState) (i : Nat) (entry : AuditEntry) (prevHash : String)
    (inv : StoreInv A B σ) (present : σ.appends[i]? = some (.linked entry prevHash)) :
    StoreInv A B
      { σ.move i (.inserted entry (pendingRow A entry (σ.db.nextId + entry.call.skippedIds) prevHash)
          σ.db.nextId) with
        db := { σ.db with nextId := σ.db.nextId + entry.call.skippedIds + 1 } } := by
  have grows : σ.db.nextId ≤ σ.db.nextId + entry.call.skippedIds + 1 := by omega
  refine move_inv A B σ i _ _ _ inv present rfl rfl ?_ ?_ ?_ ?_
  · exact fun row member => Int.lt_of_lt_of_le (inv.kept.below row member) grows
  · exact fun key held => .inl held
  · intro j phase _ found
    refine inFlight_frame A B σ.db _ phase (fun sessionId _ => ?_) (inv.flight j phase found)
    exact ⟨rfl, rfl, grows, fun row member _ => member⟩
  · refine ⟨rfl, inv.flight i _ present, ?_, Int.lt_succ _, ?_⟩
    · exact Int.le_add_of_nonneg_right (Int.natCast_nonneg _)
    · exact fun other member _ => inv.kept.below other member

/-- Publishing a row leaves the sessions under other locks alone. -/
theorem publish_frame (db : AuditDb) (row : AuditRow) (head : ChainHead) (sessionId : String)
    (other : B.lockKey sessionId ≠ B.lockKey row.sessionId) :
    SameSession B db (db.publish row head) sessionId := by
  have off : row.sessionId ≠ sessionId := fun same => other (by rw [same])
  refine ⟨?_, if_neg (Ne.symm off), Int.le_refl _, ?_⟩
  · change written (db.rows ++ [row]) sessionId = _
    rw [written_append, if_neg off]
  · intro earlier member key
    rcases List.mem_append.mp member with before | last
    · exact before
    · rw [List.mem_singleton.mp last] at key
      exact absurd key.symm other

/-- Under its lock a positioned row goes to the end of its chain. -/
theorem publish_kept (db : AuditDb) (row : AuditRow) (counter : Int) (kept : Kept A db)
    (positioned : Positioned B db row counter) (hashed : A.sha256 row.payload = row.rowHash) :
    Kept A (db.publish row (AuditDb.nextHead (db.heads row.sessionId) row)) := by
  have chain_of (sessionId : String) : written (db.publish row
      (AuditDb.nextHead (db.heads row.sessionId) row)).rows sessionId =
      if row.sessionId = sessionId then written db.rows sessionId ++ [row]
      else written db.rows sessionId := written_append db.rows row sessionId
  refine ⟨?_, ?_, ?_⟩
  · intro sessionId
    rw [chain_of]
    split
    · rename_i same
      subst same
      refine (kept.chains _).append row ?_ positioned.joins hashed
      intro earlier member
      rcases (mem_written _ _ _).mp member with ⟨present, session⟩
      have before := positioned.above earlier present (by rw [session])
      have counted := positioned.counted
      omega
    · exact kept.chains sessionId
  · intro other member
    rcases List.mem_append.mp member with earlier | last
    · exact kept.below other earlier
    · rw [List.mem_singleton.mp last]
      exact positioned.drawn
  · intro sessionId
    rw [chain_of]
    change (if sessionId = row.sessionId then some (AuditDb.nextHead (db.heads row.sessionId) row)
      else db.heads sessionId) = _
    by_cases same : row.sessionId = sessionId
    · subst same
      rw [if_pos rfl, if_pos rfl, headOf_append, kept.heads]
    · rw [if_neg same, if_neg (Ne.symm same), kept.heads]

theorem commit_inv (σ : AuditState) (i : Nat) (entry : AuditEntry) (row : AuditRow)
    (counter : Int) (head : ChainHead) (inv : StoreInv A B σ)
    (present : σ.appends[i]? = some (.headed entry row counter head)) :
    StoreInv A B
      { db := σ.db.publish row head, appends := σ.appends.set i (.committed entry row)
        commits := σ.commits ++ [i] } := by
  rcases inv.flight i _ present with ⟨shape, positioned, counted⟩
  have hashed : A.sha256 row.payload = row.rowHash := by
    rw [shape]
    rfl
  have held : (AppendPhase.headed entry row counter head).key? B =
      some (B.lockKey row.sessionId) := by
    rw [sealedRow_session A entry row shape]
    rfl
  refine ⟨?_, ?_, ?_, ?_⟩
  · rw [counted]
    exact publish_kept A B σ.db row counter inv.kept positioned hashed
  · intro j phase found
    rcases CallTable.getElem?_set_cases σ.appends i j _ phase found with ⟨-, own⟩ | ⟨off, found⟩
    · rw [own]
      exact shape
    · refine inFlight_frame A B σ.db _ phase (fun sessionId locked => ?_) (inv.flight j phase found)
      refine publish_frame B σ.db row head sessionId (fun same => ?_)
      refine inv.apart i j _ phase off present found _ held ?_
      rw [AppendPhase.key?, locked, Option.map_some, same]
  · exact CallTable.apart_set _ σ.appends i _ _ inv.apart present (fun key taken => nomatch taken)
  · exact CallTable.ledger_finish _ σ.appends σ.commits _ i _ _ row inv.ledger present rfl rfl

theorem advance_inv (σ : AuditState) (i : Nat) (inv : StoreInv A B σ) :
    StoreInv A B (σ.advance A B i) := by
  rw [advance]
  split
  · rename_i entry present
    split
    · rename_i free
      refine progress_inv A B σ i _ _ inv present rfl rfl ?_ trivial
      intro key held
      obtain rfl : B.lockKey entry.call.sessionId = key := Option.some.inj held
      exact .inr ((isFree_iff B σ _).mp free)
    · exact inv
  · rename_i entry present
    refine progress_inv A B σ i _ _ inv present rfl rfl (fun _ held => .inl held) ?_
    exact lastRowHash_tip σ.db _ (inv.kept.chains _).ids
  · rename_i entry prevHash present
    exact insert_inv A B σ i entry prevHash inv present
  · rename_i entry row counter present
    rcases inv.flight i _ present with ⟨shape, positioned⟩
    refine progress_inv A B σ i _ _ inv present rfl rfl (fun _ held => .inl held) ?_
    refine ⟨?_, positioned.joins, positioned.counted, positioned.drawn, positioned.above⟩
    change sealRow A row = sealRow A (pendingRow A entry row.id row.prevHash)
    rw [← shape]
  · rename_i entry row counter present
    rcases inv.flight i _ present with ⟨shape, positioned⟩
    exact progress_inv A B σ i _ _ inv present rfl rfl (fun _ held => .inl held)
      ⟨shape, positioned, rfl⟩
  · rename_i entry row counter head present
    exact commit_inv A B σ i entry row counter head inv present
  · exact inv

theorem rollback_inv (σ : AuditState) (i : Nat) (old : AppendPhase) (row : AuditRow)
    (counter : Int) (inv : StoreInv A B σ) (present : σ.appends[i]? = some old)
    (was_open : old.committed? = none) (held : old.session? = some row.sessionId)
    (positioned : Positioned B σ.db row counter) :
    StoreInv A B { σ.move i .raised with
      db := { σ.db with nextId := if B.restoresIds then counter else σ.db.nextId } } := by
  by_cases restored : B.restoresIds = true
  · rw [if_pos restored]
    have one (sessionId other : String) := B.whole restored sessionId other
    refine move_inv A B σ i old .raised counter inv present was_open rfl ?_ nofun ?_ trivial
    · exact fun other member => positioned.above other member (one _ _)
    · intro j phase off found
      refine inFlight_frame A B σ.db _ phase (fun sessionId locked => ?_) (inv.flight j phase found)
      -- the whole store was locked by the call at `i`
      refine absurd ?_ (inv.apart i j old phase off present found (B.lockKey row.sessionId) ?_)
      · rw [AppendPhase.key?, locked, Option.map_some, one sessionId row.sessionId]
      · rw [AppendPhase.key?, held, Option.map_some]
  · rw [if_neg restored]
    exact progress_inv A B σ i old .raised inv present was_open rfl nofun trivial

theorem fail_inv (σ : AuditState) (i : Nat) (inv : StoreInv A B σ) : StoreInv A B (σ.fail B i) := by
  rw [fail]
  split
  · exact inv
  · exact inv
  · rename_i phase running ended present
    cases phase with
    | committed entry row => exact absurd rfl (running entry row)
    | raised => exact absurd rfl ended
    | encoded entry => exact progress_inv A B σ i _ _ inv present rfl rfl nofun trivial
    | locked entry => exact progress_inv A B σ i _ _ inv present rfl rfl nofun trivial
    | linked entry prevHash => exact progress_inv A B σ i _ _ inv present rfl rfl nofun trivial
    | inserted entry row counter =>
      rcases inv.flight i _ present with ⟨shape, positioned⟩
      refine rollback_inv A B σ i _ row counter inv present rfl ?_ positioned
      rw [pendingRow_session A entry row shape]
      rfl
    | hashed entry row counter =>
      rcases inv.flight i _ present with ⟨shape, positioned⟩
      refine rollback_inv A B σ i _ row counter inv present rfl ?_ positioned
      rw [sealedRow_session A entry row shape]
      rfl
    | headed entry row counter head =>
      rcases inv.flight i _ present with ⟨shape, positioned, -⟩
      refine rollback_inv A B σ i _ row counter inv present rfl ?_ positioned
      rw [sealedRow_session A entry row shape]
      rfl
  · exact inv

theorem step_inv (σ : AuditState) (event : AuditEvent) (inv : StoreInv A B σ) :
    StoreInv A B (σ.step A B event) := by
  cases event with
  | arrive call => exact arrive_inv A B σ call inv
  | advance append => exact advance_inv A B σ append inv
  | fail append => exact fail_inv A B σ append inv

theorem run_inv (events : List AuditEvent) : ∀ σ, StoreInv A B σ → StoreInv A B (σ.run A B events) :=
  Runs.run_always (step A B) (StoreInv A B) (step_inv A B) events

/-! Every call writes what it was called with. -/

/-- A step adds a call, changes none, or moves one that goes on writing the same or raises. -/
theorem step_appends (σ : AuditState) (event : AuditEvent) :
    (∃ call, event = .arrive call ∧
      (σ.step A B event).appends = σ.appends ++ [encode A call]) ∨
    (arrivals [event] = [] ∧ ((σ.step A B event).appends = σ.appends ∨
      ∃ (i : Nat) (old new : AppendPhase), σ.appends[i]? = some old ∧
        (σ.step A B event).appends = σ.appends.set i new ∧
        ∀ entry, new.writtenEntry = some entry → old.writtenEntry = some entry)) := by
  cases event with
  | arrive call => exact .inl ⟨call, rfl, rfl⟩
  | advance i =>
    refine .inr ⟨rfl, ?_⟩
    rw [step, advance]
    split
    · rename_i entry present
      split
      · exact .inr ⟨i, _, _, present, rfl, fun _ same => same⟩
      · exact .inl rfl
    · rename_i present
      exact .inr ⟨i, _, _, present, rfl, fun _ same => same⟩
    · rename_i present
      exact .inr ⟨i, _, _, present, rfl, fun _ same => same⟩
    · rename_i present
      exact .inr ⟨i, _, _, present, rfl, fun _ same => same⟩
    · rename_i present
      exact .inr ⟨i, _, _, present, rfl, fun _ same => same⟩
    · rename_i present
      exact .inr ⟨i, _, _, present, rfl, fun _ same => same⟩
    · exact .inl rfl
  | fail i =>
    refine .inr ⟨rfl, ?_⟩
    rw [step, fail]
    split
    · exact .inl rfl
    · exact .inl rfl
    · rename_i present
      exact .inr ⟨i, _, .raised, present, rfl, nofun⟩
    · exact .inl rfl

structure Matched (events : List AuditEvent) (σ : AuditState) : Prop where
  length : σ.appends.length = (arrivals events).length
  called : ∀ (i : Nat) (phase : AppendPhase) (entry : AuditEntry), σ.appends[i]? = some phase →
    phase.writtenEntry = some entry →
    (arrivals events)[i]? = some entry.call ∧ encode A entry.call = .encoded entry

theorem encode_entry (call : LogCall) (entry : AuditEntry)
    (encoded : (encode A call).writtenEntry = some entry) :
    entry.call = call ∧ encode A call = .encoded entry := by
  rw [encode] at encoded ⊢
  split at encoded
  · obtain rfl := Option.some.inj encoded
    exact ⟨rfl, rfl⟩
  · cases encoded

theorem step_matched (past : List AuditEvent) (σ : AuditState) (event : AuditEvent)
    (matched : Matched A past σ) : Matched A (past ++ [event]) (σ.step A B event) := by
  have grown : arrivals (past ++ [event]) = arrivals past ++ arrivals [event] :=
    List.filterMap_append
  rcases step_appends A B σ event with ⟨call, rfl, added⟩ | ⟨silent, same | moved⟩
  · refine ⟨?_, ?_⟩
    · rw [added, grown, List.length_append, List.length_append, matched.length]
      rfl
    · intro i phase entry found writes
      rw [added] at found
      rw [grown]
      rcases CallTable.getElem?_concat_cases σ.appends i _ phase found with ⟨last, own⟩ | found
      · rw [own] at writes
        rcases encode_entry A call entry writes with ⟨rfl, encoded⟩
        rw [last, matched.length]
        exact ⟨List.getElem?_concat_length, encoded⟩
      · rcases matched.called i phase entry found writes with ⟨earlier, encoded⟩
        have inside := (List.getElem?_eq_some_iff.mp earlier).1
        exact ⟨(List.getElem?_append_left inside).trans earlier, encoded⟩
  · rw [silent, List.append_nil] at grown
    refine ⟨?_, ?_⟩
    · rw [grown, same, matched.length]
    · rw [grown, same]
      exact matched.called
  · rcases moved with ⟨i, old, new, present, moved, keeps⟩
    rw [silent, List.append_nil] at grown
    refine ⟨?_, ?_⟩
    · rw [grown, moved, List.length_set, matched.length]
    rw [grown, moved]
    intro j phase entry found writes
    rcases CallTable.getElem?_set_cases σ.appends i j new phase found with ⟨own, rfl⟩ | ⟨-, found⟩
    · subst own
      exact matched.called i old entry present (keeps entry writes)
    · exact matched.called j phase entry found writes

theorem run_matched (events : List AuditEvent) : Matched A events (start.run A B events) :=
  Runs.run_history (step A B) (Matched A) (step_matched A B) events [] start
    ⟨rfl, by simp [start]⟩

/-- The store tells the successful appends. -/
structure Faithful (events : List AuditEvent) (σ : AuditState) : Prop where
  verified : ∀ sessionId, verifyChain A σ.db sessionId = true
  rows : ∀ sessionId, sessionRows σ.db.rows sessionId =
    σ.successes.filter (·.sessionId = sessionId)
  /-- A row of a successful append is that of its call. -/
  successful : ∀ (i : Nat) (entry : AuditEntry) (row : AuditRow),
    σ.appends[i]? = some (.committed entry row) →
      i ∈ σ.commits ∧ (arrivals events)[i]? = some entry.call ∧ encode A entry.call = .encoded entry ∧
        row = sealRow A (pendingRow A entry row.id row.prevHash)
  committed : ∀ i ∈ σ.commits, ∃ entry row, σ.appends[i]? = some (.committed entry row)
  once : σ.commits.Nodup
  heads : ∀ sessionId, σ.db.heads sessionId = headOf (sessionRows σ.db.rows sessionId)

/-- Any number of writers on any number of sessions, failing anywhere. -/
theorem appends_faithful (events : List AuditEvent) : Faithful A events (start.run A B events) := by
  have inv := run_inv A B events start (start_inv A B)
  have matched := run_matched A B events
  generalize start.run A B events = σ at inv matched
  have sorted (sessionId : String) :
      sessionRows σ.db.rows sessionId = written σ.db.rows sessionId :=
    sessionRows_written _ _ (inv.kept.chains sessionId).ids
  refine ⟨kept_verifies A σ.db inv.kept, ?_, ?_, ?_, inv.ledger.once, ?_⟩
  · intro sessionId
    rw [sorted, written, inv.ledger.results, successes]
  · intro i entry row found
    have finished : i ∈ σ.commits := (inv.ledger.finished i).mpr ⟨row, by rw [found]; rfl⟩
    rcases matched.called i _ entry found rfl with ⟨called, encoded⟩
    exact ⟨finished, called, encoded, inv.flight i _ found⟩
  · intro i member
    rcases (inv.ledger.finished i).mp member with ⟨row, finished⟩
    rcases Option.bind_eq_some_iff.mp finished with ⟨phase, found, left⟩
    cases phase with
    | committed entry row => exact ⟨entry, row, found⟩
    | _ => cases left
  · intro sessionId
    rw [sorted, inv.kept.heads]

end

end GenesisAgents
