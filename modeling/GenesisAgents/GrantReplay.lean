import GenesisAgents.ActionGrants
import GenesisAgents.Library.Runs

/-! Action grants over whole runs. A call of `consume_action_grant` reads the clock once and checks
its token, and later has its transaction; between the two other calls move and the clock goes on. -/

namespace GenesisAgents

open Value

/-- Where one call of `consume_action_grant` stands. -/
inductive GrantPhase where
  | checked (use : GrantUse) (spend : Spend)
  | returned (use : GrantUse) (spend : Spend)
  | raised (use : GrantUse) (failure : GrantFailure)

namespace GrantPhase

def returned? : GrantPhase → Option (GrantUse × Spend)
  | returned use spend => some (use, spend)
  | _ => none

end GrantPhase

structure GrantState where
  clock : Int
  store : SpentGrants
  calls : List GrantPhase
  /-- The transactions that reached the store, in order. -/
  transactions : List (ExpiringKeys.Consume String Int)

inductive GrantEvent where
  | tick (seconds : Nat)
  | arrive (use : GrantUse)
  | transact (call : Nat) (available : Bool)

namespace GrantState

def start (clock : Int) : GrantState :=
  { clock := clock, store := [], calls := [], transactions := [] }

def arrive (A : GrantAuthority) (σ : GrantState) (use : GrantUse) : GrantState :=
  { σ with
    calls := σ.calls ++ [match checkGrant A use σ.clock with
      | .error failure => .raised use failure
      | .ok spend => .checked use spend] }

def transact (σ : GrantState) (call : Nat) (available : Bool) : GrantState :=
  match σ.calls[call]? with
  | some (.checked use spend) =>
    let logged := if available then σ.transactions ++ [spend.transaction] else σ.transactions
    match spendJti available σ.store spend with
    | .error failure =>
      { σ with calls := σ.calls.set call (.raised use failure), transactions := logged }
    | .ok store =>
      { σ with store := store, calls := σ.calls.set call (.returned use spend)
               transactions := logged }
  | _ => σ

/-- An event that does not apply to its call changes nothing. -/
def step (A : GrantAuthority) (σ : GrantState) : GrantEvent → GrantState
  | .tick seconds => { σ with clock := σ.clock + seconds }
  | .arrive use => arrive A σ use
  | .transact call available => transact σ call available

def run (A : GrantAuthority) (σ : GrantState) (events : List GrantEvent) : GrantState :=
  Runs.run (step A) σ events

def successes (σ : GrantState) : List (GrantUse × Spend) := σ.calls.filterMap GrantPhase.returned?

/-- No token was consumed successfully by two calls. -/
def SingleUse (σ : GrantState) : Prop := (σ.successes.map fun call => call.1.token).Nodup

/-- Every success is within the window of an issued grant and in its terms. -/
def Bound (A : GrantAuthority) (issued : List GrantRequest) (σ : GrantState) : Prop :=
  ∀ call ∈ σ.successes, ∃ r ∈ issued, call.1.token = grantToken A (r.encoded A) ∧
    call.2.consumedAt ≤ r.expires ∧ call.1.principalId = r.principalId ∧
    call.1.tenantId = r.tenantId ∧ call.1.tool = r.tool ∧
    jsonValue call.1.args = jsonValue r.args

end GrantState

open GrantState

/-! What the signatures and the digests are trusted for. -/

/-- A token whose signature verifies encodes an issued grant. -/
def Unforged (A : GrantAuthority) (issued : List GrantRequest) (token : String) : Prop :=
  ∀ encoded, splitToken token = some (grantPrefix, encoded, A.hmac A.key encoded) →
    ∃ r ∈ issued, encoded = r.encoded A

/-- The digest of the use is that of an issued call only if their texts are the same. -/
def CollisionFree (A : GrantAuthority) (issued : List GrantRequest) (use : GrantUse) : Prop :=
  ∀ r ∈ issued, grantDigest A use.tool use.args = grantDigest A r.tool r.args →
    canonicalText (dict [("tool", str use.tool), ("args", use.args)]) =
      canonicalText (dict [("tool", str r.tool), ("args", r.args)])

/-- Decoding gives back the payload of every issued grant. -/
def Decodes (A : GrantAuthority) (issued : List GrantRequest) : Prop :=
  ∀ r ∈ issued, A.decode (r.encoded A) = some (sortKeys (r.payload A))

section

variable (A : GrantAuthority)

/-! The store and the successes of a run are those of its transactions. -/

def GrantState.jtis (σ : GrantState) : List String := σ.successes.map fun call => call.2.jti

def GrantState.Balanced (σ : GrantState) : Prop :=
  ExpiringKeys.Accounts σ.store σ.transactions σ.jtis

theorem arrive_successes (σ : GrantState) (use : GrantUse) :
    (GrantState.arrive A σ use).successes = σ.successes := by
  rw [GrantState.arrive, successes, List.filterMap_append]
  cases checkGrant A use σ.clock <;> exact List.append_nil _

theorem set_successes (σ : GrantState) (call : Nat) (use : GrantUse) (spend : Spend)
    (present : σ.calls[call]? = some (.checked use spend)) (phase : GrantPhase) :
    ((σ.calls.set call phase).filterMap GrantPhase.returned?).Perm
      (σ.successes ++ phase.returned?.toList) :=
  Runs.filterMap_set GrantPhase.returned? σ.calls call _ phase present rfl

theorem transact_balanced (σ : GrantState) (call : Nat) (available : Bool) (holds : σ.Balanced) :
    (GrantState.transact σ call available).Balanced := by
  rw [GrantState.transact]
  split
  · rename_i use spend present
    have outcome (phase : GrantPhase) :=
      (set_successes σ call use spend present phase).map fun call => call.2.jti
    rw [spendJti]
    cases available
    · refine holds.rearrange ((outcome _).trans ?_)
      simp [GrantPhase.returned?, GrantState.jtis]
    · rcases consumed : ExpiringKeys.consume σ.store spend.transaction with _ | store
      · refine (holds.refuse consumed).rearrange ((outcome _).trans ?_)
        simp [GrantPhase.returned?, GrantState.jtis]
      · refine (holds.commit consumed).rearrange ((outcome _).trans ?_)
        simp [GrantPhase.returned?, GrantState.jtis, Spend.transaction]
  · exact holds

theorem step_balanced (σ : GrantState) (event : GrantEvent) (holds : σ.Balanced) :
    (GrantState.step A σ event).Balanced := by
  cases event with
  | tick seconds => exact holds
  | arrive use =>
    refine holds.rearrange ?_
    rw [GrantState.jtis, GrantState.step, arrive_successes]
    exact List.Perm.refl _
  | transact call available => exact transact_balanced σ call available holds

/-! Every call that passed the checks is a use that was presented. -/

variable (presented : GrantUse → Prop)

def GrantPhase.Known : GrantPhase → Prop
  | .checked use spend | .returned use spend =>
    presented use ∧ ∃ current, checkGrant A use current = .ok spend
  | .raised _ _ => True

theorem arrive_known (σ : GrantState) (use : GrantUse) (comes : presented use)
    (known : ∀ phase ∈ σ.calls, phase.Known A presented) :
    ∀ phase ∈ (GrantState.arrive A σ use).calls, phase.Known A presented := by
  intro phase member
  rw [GrantState.arrive, List.mem_append, List.mem_singleton] at member
  rcases member with earlier | rfl
  · exact known phase earlier
  · rcases checked : checkGrant A use σ.clock with failure | spend
    · trivial
    · exact ⟨comes, σ.clock, checked⟩

theorem transact_known (σ : GrantState) (call : Nat) (available : Bool)
    (known : ∀ phase ∈ σ.calls, phase.Known A presented) :
    ∀ phase ∈ (GrantState.transact σ call available).calls, phase.Known A presented := by
  rw [GrantState.transact]
  split
  · rename_i use spend present
    have own := known _ (List.mem_of_getElem? present)
    intro phase member
    dsimp only at member
    split at member
    · rcases List.mem_or_eq_of_mem_set member with earlier | rfl
      · exact known phase earlier
      · trivial
    · rcases List.mem_or_eq_of_mem_set member with earlier | rfl
      · exact known phase earlier
      · exact own
  · exact known

theorem run_known (clock : Int) (events : List GrantEvent)
    (arrivals : ∀ use, .arrive use ∈ events → presented use) :
    ∀ phase ∈ (GrantState.run A (start clock) events).calls, phase.Known A presented := by
  refine Runs.run_of_events (GrantState.step A)
    (fun σ => ∀ phase ∈ σ.calls, phase.Known A presented) (· ∈ events) ?_ events
    (fun _ member => member) _ (by simp [start])
  intro σ event member known
  cases event with
  | tick seconds => exact known
  | arrive use => exact arrive_known A presented σ use (arrivals use member) known
  | transact call available => exact transact_known A presented σ call available known

theorem run_balanced (clock : Int) (events : List GrantEvent) :
    (GrantState.run A (start clock) events).Balanced :=
  Runs.run_always (GrantState.step A) GrantState.Balanced (step_balanced A) events _
    ExpiringKeys.Accounts.start

/-! A success agrees with the issued grant behind its token. -/

variable (issued : List GrantRequest)

structure Honest (use : GrantUse) : Prop where
  unforged : Unforged A issued use.token
  collisionFree : CollisionFree A issued use

def Carries (token : String) (r : GrantRequest) : Prop :=
  splitToken token = some (grantPrefix, r.encoded A, A.hmac A.key (r.encoded A))

theorem carries_token (token : String) (r : GrantRequest) (carries : Carries A token r) :
    token = grantToken A (r.encoded A) := by
  exact splitToken_append _ _ _ _ carries

theorem checked_agrees (decodes : Decodes A issued) (use : GrantUse) (honest : Honest A issued use)
    (current : Int) (spend : Spend) (checked : checkGrant A use current = .ok spend) :
    ∃ r ∈ issued, Carries A use.token r ∧ Agrees A r use spend := by
  rcases except_bind_ok _ _ _ checked with ⟨payload, read, -⟩
  rcases readGrant_ok A use.token payload read with ⟨encoded, split, decoded⟩
  rcases honest.unforged encoded split with ⟨r, member, rfl⟩
  obtain rfl : sortKeys (r.payload A) = payload :=
    Option.some.inj ((decodes r member).symm.trans decoded)
  exact ⟨r, member, split, (checkGrant_issued A r use current spend read checked).2⟩

theorem success_agrees (decodes : Decodes A issued) (clock : Int) (events : List GrantEvent)
    (honest : ∀ use, .arrive use ∈ events → Honest A issued use) :
    ∀ call ∈ (GrantState.run A (start clock) events).successes, Honest A issued call.1 ∧
      ∃ r ∈ issued, Carries A call.1.token r ∧ Agrees A r call.1 call.2 := by
  intro call member
  rcases List.mem_filterMap.mp member with ⟨phase, inside, same⟩
  have known := run_known A (Honest A issued) clock events honest phase inside
  cases phase with
  | checked use spend => contradiction
  | raised use failure => contradiction
  | returned use spend =>
    obtain rfl := Option.some.inj same
    rcases known with ⟨trusted, current, checked⟩
    exact ⟨trusted, checked_agrees A issued decodes use trusted current spend checked⟩

theorem carries_unique (decodes : Decodes A issued) (token : String) (r r' : GrantRequest)
    (member : r ∈ issued) (member' : r' ∈ issued) (carries : Carries A token r)
    (carries' : Carries A token r') : r.jti = r'.jti := by
  have parts := Option.some.inj (carries.symm.trans carries')
  simp only [Prod.mk.injEq, true_and] at parts
  have payloads : sortKeys (r.payload A) = sortKeys (r'.payload A) := by
    rw [← Option.some.injEq, ← decodes r member, ← decodes r' member', parts.1]
  rw [sortKeys_payload, sortKeys_payload] at payloads
  simp only [dict.injEq, List.cons.injEq, Prod.mk.injEq, str.injEq, true_and] at payloads
  exact payloads.2.2.2.2.1

/-- Two successes spent the same id exactly when they presented the same token. -/
theorem token_iff_jti (distinct : (issued.map GrantRequest.jti).Nodup) (decodes : Decodes A issued)
    (token token' : String) (r r' : GrantRequest) (member : r ∈ issued) (member' : r' ∈ issued)
    (carries : Carries A token r) (carries' : Carries A token' r') :
    token = token' ↔ r.jti = r'.jti := by
  constructor
  · rintro rfl
    exact carries_unique A issued decodes token r r' member member' carries carries'
  · intro same
    obtain rfl := List.inj_on_of_nodup_map distinct member member' same
    rw [carries_token A token r carries, carries_token A token' r carries']

theorem singleUse_iff_jtis (distinct : (issued.map GrantRequest.jti).Nodup)
    (decodes : Decodes A issued) (clock : Int) (events : List GrantEvent)
    (honest : ∀ use, .arrive use ∈ events → Honest A issued use) :
    (GrantState.run A (start clock) events).SingleUse ↔
      (GrantState.run A (start clock) events).jtis.Nodup := by
  have agree := success_agrees A issued decodes clock events honest
  rw [SingleUse, GrantState.jtis, List.nodup_iff_pairwise_ne, List.nodup_iff_pairwise_ne,
    List.pairwise_map, List.pairwise_map]
  refine List.Pairwise.iff_of_mem ?_
  intro call call' inside inside'
  rcases agree call inside with ⟨-, r, member, carries, terms⟩
  rcases agree call' inside' with ⟨-, r', member', carries', terms'⟩
  have same := token_iff_jti A issued distinct decodes call.1.token call'.1.token r r' member member'
    carries carries'
  rw [terms.jti, terms'.jti]
  exact not_congr same

theorem run_bound (decodes : Decodes A issued) (clock : Int) (events : List GrantEvent)
    (honest : ∀ use, .arrive use ∈ events → Honest A issued use) :
    (GrantState.run A (start clock) events).Bound A issued := by
  intro call inside
  rcases success_agrees A issued decodes clock events honest call inside with
    ⟨trusted, r, member, carries, terms⟩
  have texts := trusted.collisionFree r member terms.digest
  have args := (canonicalText_call _ _ _ _ texts).2
  exact ⟨r, member, carries_token A call.1.token r carries, terms.inTime, terms.principalId,
    terms.tenantId, terms.tool, args⟩

/-- Every success is bound to its grant, and no token is spent twice exactly when no sweep comes too
early for one that is still to be presented. -/
theorem grants_hold_iff_timely (distinct : (issued.map GrantRequest.jti).Nodup)
    (decodes : Decodes A issued) (clock : Int) (events : List GrantEvent)
    (honest : ∀ use, .arrive use ∈ events → Honest A issued use) :
    (GrantState.run A (start clock) events).SingleUse ∧
        (GrantState.run A (start clock) events).Bound A issued ↔
      ExpiringKeys.Timely (GrantState.run A (start clock) events).transactions := by
  rw [singleUse_iff_jtis A issued distinct decodes clock events honest,
    (run_balanced A clock events).nodup_iff]
  exact and_iff_left (run_bound A issued decodes clock events honest)

end

/-! A grant spent twice: between the clock reading and the transaction of its second call, another
grant is spent in the next second, past the end of the first one. -/

def deployArgs : Value := dict [("target", str "prod")]

def deployDigest : String := "0108037d0373c2aeff002ac8572d90e78ee5998d40fa7b8c3cc97eef1f654e2f"

def firstGrant : GrantRequest :=
  { principalId := "service:cato", tenantId := "e4l", tool := "github_tool", args := deployArgs
    authorizationId := "auth-1", now := 1800000000, ttlSeconds := 300
    jti := "6f1ed002ab5595859014ebf0951522d9" }

def secondGrant : GrantRequest :=
  { principalId := "service:cato", tenantId := "e4l", tool := "github_tool", args := deployArgs
    authorizationId := "auth-2", now := 1800000060, ttlSeconds := 300
    jti := "d1b2a59fbea7e20077af9f91b27e95e8" }

@[irreducible] def firstPayloadText : String :=
  "\x7b\"args_digest\":\"0108037d0373c2aeff002ac8572d90e78ee5998d40fa7b8c3cc97e" ++
  "ef1f654e2f\",\"aud\":\"genesis-tool-dispatch\",\"authorization_id\":\"auth-1\"," ++
  "\"exp\":1800000300,\"iat\":1800000000,\"jti\":\"6f1ed002ab5595859014ebf095152" ++
  "2d9\",\"sub\":\"service:cato\",\"tenant\":\"e4l\",\"tool\":\"github_tool\",\"v\":1\x7d"

@[irreducible] def firstEncoded : String :=
  "eyJhcmdzX2RpZ2VzdCI6IjAxMDgwMzdkMDM3M2MyYWVmZjAwMmFjODU3MmQ5MGU3OGVlNTk5OGQ0MGZhN2I4YzNj" ++
  "Yzk3ZWVmMWY2NTRlMmYiLCJhdWQiOiJnZW5lc2lzLXRvb2wtZGlzcGF0Y2giLCJhdXRob3JpemF0aW9uX2lkIjoi" ++
  "YXV0aC0xIiwiZXhwIjoxODAwMDAwMzAwLCJpYXQiOjE4MDAwMDAwMDAsImp0aSI6IjZmMWVkMDAyYWI1NTk1ODU5" ++
  "MDE0ZWJmMDk1MTUyMmQ5Iiwic3ViIjoic2VydmljZTpjYXRvIiwidGVuYW50IjoiZTRsIiwidG9vbCI6ImdpdGh1" ++
  "Yl90b29sIiwidiI6MX0"

def firstSignature : String := "HHGb6Wo2aDylM7QMAoH_oJ2NCt8Tj34ViwFhhXD3daY"

@[irreducible] def secondPayloadText : String :=
  "\x7b\"args_digest\":\"0108037d0373c2aeff002ac8572d90e78ee5998d40fa7b8c3cc97e" ++
  "ef1f654e2f\",\"aud\":\"genesis-tool-dispatch\",\"authorization_id\":\"auth-2\"," ++
  "\"exp\":1800000360,\"iat\":1800000060,\"jti\":\"d1b2a59fbea7e20077af9f91b27e9" ++
  "5e8\",\"sub\":\"service:cato\",\"tenant\":\"e4l\",\"tool\":\"github_tool\",\"v\":1\x7d"

@[irreducible] def secondEncoded : String :=
  "eyJhcmdzX2RpZ2VzdCI6IjAxMDgwMzdkMDM3M2MyYWVmZjAwMmFjODU3MmQ5MGU3OGVlNTk5OGQ0MGZhN2I4YzNj" ++
  "Yzk3ZWVmMWY2NTRlMmYiLCJhdWQiOiJnZW5lc2lzLXRvb2wtZGlzcGF0Y2giLCJhdXRob3JpemF0aW9uX2lkIjoi" ++
  "YXV0aC0yIiwiZXhwIjoxODAwMDAwMzYwLCJpYXQiOjE4MDAwMDAwNjAsImp0aSI6ImQxYjJhNTlmYmVhN2UyMDA3" ++
  "N2FmOWY5MWIyN2U5NWU4Iiwic3ViIjoic2VydmljZTpjYXRvIiwidGVuYW50IjoiZTRsIiwidG9vbCI6ImdpdGh1" ++
  "Yl90b29sIiwidiI6MX0"

def secondSignature : String := "fdOSSP7b1deAvSYMeKvROlj5NtelRL2Wxg4MNSfAgt4"

def sortedPayload (authorizationId jti : String) (issued : Int) : Value :=
  dict [("args_digest", str deployDigest), ("aud", str "genesis-tool-dispatch"),
    ("authorization_id", str authorizationId), ("exp", int (issued + 300)), ("iat", int issued),
    ("jti", str jti), ("sub", str "service:cato"), ("tenant", str "e4l"),
    ("tool", str "github_tool"), ("v", int 1)]

def deployAuthority : GrantAuthority where
  unicode := { lower := id, printable := fun _ => true }
  key := "kkkkkkkkkkkkkkkkkkkkkkkkkkkkkkkkkkkkkkkk"
  hmac _ text :=
    if text = firstEncoded then firstSignature
    else if text = secondEncoded then secondSignature else ""
  sha256 text :=
    if text = "\x7b\"args\":\x7b\"target\":\"prod\"\x7d,\"tool\":\"github_tool\"\x7d" then deployDigest
    else ""
  encode text :=
    if text = firstPayloadText then firstEncoded
    else if text = secondPayloadText then secondEncoded else ""
  decode text :=
    if text = firstEncoded then
      some (sortedPayload "auth-1" "6f1ed002ab5595859014ebf0951522d9" 1800000000)
    else if text = secondEncoded then
      some (sortedPayload "auth-2" "d1b2a59fbea7e20077af9f91b27e95e8" 1800000060)
    else none
  intOfText _ := none

def doubleSpend : List GrantEvent :=
  [.arrive (firstGrant.use deployAuthority), .transact 0 true,
   .arrive (firstGrant.use deployAuthority), .tick 1,
   .arrive (secondGrant.use deployAuthority), .transact 2 true, .transact 1 true]

theorem firstGrant_encoded : firstGrant.encoded deployAuthority = firstEncoded := by
  decide +kernel

theorem secondGrant_encoded : secondGrant.encoded deployAuthority = secondEncoded := by
  decide +kernel

theorem deploy_digest : grantDigest deployAuthority "github_tool" deployArgs = deployDigest := by
  decide

theorem encoded_apart : secondEncoded ≠ firstEncoded := by
  intro same
  have texts := congrArg String.toList same
  simp only [secondEncoded, firstEncoded, String.toList_append] at texts
  have fronts := List.append_inj_left' (List.append_cancel_right texts) (by simp)
  have authorization := List.append_cancel_left fronts
  simp at authorization

theorem decode_first : deployAuthority.decode firstEncoded =
    some (sortedPayload "auth-1" "6f1ed002ab5595859014ebf0951522d9" 1800000000) := by
  simp only [deployAuthority, ↓reduceIte]

theorem decode_second : deployAuthority.decode secondEncoded =
    some (sortedPayload "auth-2" "d1b2a59fbea7e20077af9f91b27e95e8" 1800000060) := by
  simp only [deployAuthority, if_neg encoded_apart, ↓reduceIte]

theorem firstGrant_usable : Usable deployAuthority firstGrant where
  configured := by decide
  decodes := by
    rw [sortKeys_payload, firstGrant_encoded, decode_first]
    simp only [firstGrant, deploy_digest]
    rfl
  undotted := by
    rw [firstGrant_encoded]
    simp only [firstEncoded, String.toList_append, List.mem_append, not_or]
    refine ⟨⟨⟨?_, ?_⟩, ?_⟩, ?_⟩ <;> simp
  signature := by
    rw [firstGrant_encoded]
    simp only [deployAuthority, ↓reduceIte]
    decide
  principalId := by decide
  tenantId := by decide
  tool := by decide
  digest := by
    simp only [firstGrant, deploy_digest]
    decide

theorem secondGrant_usable : Usable deployAuthority secondGrant where
  configured := by decide
  decodes := by
    rw [sortKeys_payload, secondGrant_encoded, decode_second]
    simp only [secondGrant, deploy_digest]
    rfl
  undotted := by
    rw [secondGrant_encoded]
    simp only [secondEncoded, String.toList_append, List.mem_append, not_or]
    refine ⟨⟨⟨?_, ?_⟩, ?_⟩, ?_⟩ <;> simp
  signature := by
    rw [secondGrant_encoded]
    simp only [deployAuthority, if_neg encoded_apart, ↓reduceIte]
    decide
  principalId := by decide
  tenantId := by decide
  tool := by decide
  digest := by
    simp only [secondGrant, deploy_digest]
    decide

theorem deploy_honest : ∀ use, .arrive use ∈ doubleSpend →
    Honest deployAuthority [firstGrant, secondGrant] use := by
  have own (r : GrantRequest) (member : r ∈ [firstGrant, secondGrant])
      (usable : Usable deployAuthority r) :
      Honest deployAuthority [firstGrant, secondGrant] (r.use deployAuthority) := by
    constructor
    · intro encoded split
      have parts := Option.some.inj ((splitToken_grantToken _ _ usable.undotted).symm.trans split)
      simp only [Prod.mk.injEq, true_and] at parts
      exact ⟨r, member, parts.1.symm⟩
    · intro issued among _
      have terms : ∀ r ∈ [firstGrant, secondGrant], r.tool = "github_tool" ∧ r.args = deployArgs := by
        simp [firstGrant, secondGrant]
      rw [GrantRequest.use, (terms r member).1, (terms r member).2, (terms issued among).1,
        (terms issued among).2]
  intro use member
  simp only [doubleSpend, List.mem_cons, GrantEvent.arrive.injEq, reduceCtorEq, false_or,
    List.not_mem_nil, or_false] at member
  rcases member with rfl | rfl | rfl
  · exact own firstGrant (by simp) firstGrant_usable
  · exact own firstGrant (by simp) firstGrant_usable
  · exact own secondGrant (by simp) secondGrant_usable

def spendState (clock : Int) (rows : SpentGrants) (calls : List GrantPhase) (spends : List Spend) :
    GrantState :=
  { clock := clock, store := rows, calls := calls, transactions := spends.map Spend.transaction }

theorem arrive_spendState (A : GrantAuthority) (clock : Int) (rows : SpentGrants)
    (calls : List GrantPhase) (spends : List Spend) (r : GrantRequest) (usable : Usable A r)
    (early : r.now - 60 ≤ clock) (late : clock ≤ r.expires) :
    GrantState.step A (spendState clock rows calls spends) (.arrive (r.use A)) =
      spendState clock rows (calls ++ [.checked (r.use A) (r.spend clock)]) spends := by
  rw [GrantState.step, GrantState.arrive, spendState, checkGrant_use A r usable clock early late]
  rfl

theorem transact_spendState (A : GrantAuthority) (clock : Int) (rows rows' : SpentGrants)
    (calls : List GrantPhase) (spends : List Spend) (call : Nat) (use : GrantUse) (spend : Spend)
    (present : calls[call]? = some (.checked use spend))
    (free : ExpiringKeys.consume rows spend.transaction = some rows') :
    GrantState.step A (spendState clock rows calls spends) (.transact call true) =
      spendState clock rows' (calls.set call (.returned use spend)) (spends ++ [spend]) := by
  rw [GrantState.step, GrantState.transact, spendState, present]
  simp only [spendJti, if_true, free, spendState, List.map_append, List.map_cons, List.map_nil]

theorem doubleSpend_calls :
    (GrantState.run deployAuthority (start 1800000300) doubleSpend).calls =
      [.returned (firstGrant.use deployAuthority) (firstGrant.spend 1800000300),
       .returned (firstGrant.use deployAuthority) (firstGrant.spend 1800000300),
       .returned (secondGrant.use deployAuthority) (secondGrant.spend 1800000301)] := by
  have first (rows : SpentGrants) (calls : List GrantPhase) (spends : List Spend) :=
    arrive_spendState deployAuthority 1800000300 rows calls spends firstGrant firstGrant_usable
      (by decide) (by decide)
  have second (rows : SpentGrants) (calls : List GrantPhase) (spends : List Spend) :=
    arrive_spendState deployAuthority 1800000301 rows calls spends secondGrant secondGrant_usable
      (by decide) (by decide)
  have later (rows : SpentGrants) (calls : List GrantPhase) (spends : List Spend) :
      GrantState.step deployAuthority (spendState 1800000300 rows calls spends) (.tick 1) =
        spendState 1800000301 rows calls spends := rfl
  have spent : ExpiringKeys.consume [] (firstGrant.spend 1800000300).transaction =
      some [(firstGrant.jti, 1800000300)] := by decide
  have swept : ExpiringKeys.consume [(firstGrant.jti, 1800000300)]
      (secondGrant.spend 1800000301).transaction = some [(secondGrant.jti, 1800000360)] := by
    decide
  have again : ExpiringKeys.consume [(secondGrant.jti, 1800000360)]
      (firstGrant.spend 1800000300).transaction =
        some [(secondGrant.jti, 1800000360), (firstGrant.jti, 1800000300)] := by decide
  have begins : start 1800000300 = spendState 1800000300 [] [] [] := rfl
  rw [doubleSpend, GrantState.run, begins]
  rw [Runs.run_cons, first, Runs.run_cons, transact_spendState _ _ _ _ _ _ 0 _ _ rfl spent]
  rw [Runs.run_cons, first, Runs.run_cons, later, Runs.run_cons, second]
  rw [Runs.run_cons, transact_spendState _ _ _ _ _ _ 2 _ _ rfl swept]
  rw [Runs.run_cons, transact_spendState _ _ _ _ _ _ 1 _ _ rfl again, Runs.run_nil]
  rfl

theorem deploy_distinct : ([firstGrant, secondGrant].map GrantRequest.jti).Nodup := by decide

theorem deploy_decodes : Decodes deployAuthority [firstGrant, secondGrant] := by
  intro r member
  rcases List.mem_cons.mp member with rfl | member
  · exact firstGrant_usable.decodes
  · rw [List.mem_singleton.mp member]
    exact secondGrant_usable.decodes

/-- The first grant is returned by two calls. -/
theorem grant_spent_twice :
    ¬∀ (A : GrantAuthority) (issued : List GrantRequest) (clock : Int) (events : List GrantEvent),
      (issued.map GrantRequest.jti).Nodup → Decodes A issued →
      (∀ use, .arrive use ∈ events → Honest A issued use) →
      (GrantState.run A (start clock) events).SingleUse ∧
        (GrantState.run A (start clock) events).Bound A issued := by
  intro hold
  have once := (hold deployAuthority [firstGrant, secondGrant] 1800000300 doubleSpend
    deploy_distinct deploy_decodes deploy_honest).1
  rw [SingleUse, successes, doubleSpend_calls] at once
  generalize firstGrant.use deployAuthority = first at once
  simp [GrantPhase.returned?] at once

theorem doubleSpend_timely_iff :
    (GrantState.run deployAuthority (start 1800000300) doubleSpend).SingleUse ∧
        (GrantState.run deployAuthority (start 1800000300) doubleSpend).Bound deployAuthority
          [firstGrant, secondGrant] ↔
      ExpiringKeys.Timely
        (GrantState.run deployAuthority (start 1800000300) doubleSpend).transactions :=
  grants_hold_iff_timely deployAuthority [firstGrant, secondGrant] deploy_distinct deploy_decodes
    1800000300 doubleSpend deploy_honest

end GenesisAgents
