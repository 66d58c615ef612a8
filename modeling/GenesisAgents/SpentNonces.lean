import GenesisAgents.Library.Runs
import GenesisAgents.Retrieval

/-! What a refused request leaves in the nonce store. `verify_ap2_envelope` spends the nonce, and the
routes check what the envelope binds after it. -/

namespace GenesisAgents

open Value

/-- The routes with an AP2 branch, and what they bind. -/
inductive Ap2Route where
  /-- `verify_agent_principal` -/
  | agents (slug : String)
  /-- `_retrieval_principal` -/
  | retrieval (laxInt : Value → Option Int)

namespace Ap2Route

def scope : Ap2Route → String
  | agents _ => "agent.invoke"
  | retrieval _ => retrievalScope

def principalOf (A : Authority) (now : Moment) (body : Value) (headers : Headers) :
    Ap2Route → Except AuthFailure Principal
  | agents slug => verifyAgentPrincipal A now body headers slug
  | retrieval laxInt => retrievalPrincipal A laxInt now body headers

end Ap2Route

def storeAfter (A : Authority) (now : Moment) (body : Value) (headers : Headers)
    (requiredScope : String) : NonceStore :=
  match checkEnvelope A body headers requiredScope now.current with
  | .error _ => now.store
  | .ok verified =>
    match consumeNonce now.available now.store verified now.sweepClock with
    | .error _ => now.store
    | .ok store' => store'

/-- A request to one of the routes; of its moment the store is the one it finds. -/
structure Ap2Call where
  route : Ap2Route
  now : Moment
  body : Value
  headers : Headers

namespace Ap2Call

variable (A : Authority) (store : NonceStore) (call : Ap2Call)

def answer : Except AuthFailure Principal :=
  call.route.principalOf A { call.now with store := store } call.body call.headers

def leaves : NonceStore :=
  storeAfter A { call.now with store := store } call.body call.headers call.route.scope

end Ap2Call

def unexpired (clock : Int) (store : NonceStore) : NonceStore := ExpiringKeys.sweep clock store

/-! What an envelope that passes is verified as. -/

theorem checkClient_ok (A : Authority) (payload : Value) (nonce timestamp pubkeyB64 signatureB64 : String)
    (requiredScope : String) (stamped : Int) (verified : Verified)
    (passed : checkClient A payload nonce timestamp pubkeyB64 signatureB64 requiredScope stamped = .ok verified) :
    ∃ clients client, A.registry = some clients ∧ matchingClients pubkeyB64 clients = .ok [client] ∧
      verified = { nonce := nonce, principal := clientPrincipal client stamped } := by
  rw [checkClient] at passed
  split at passed
  · contradiction
  rename_i clients registered
  split at passed
  · contradiction
  · rename_i client matched
    split at passed
    · contradiction
    dsimp only at passed
    split at passed
    · exact ⟨clients, client, registered, matched, (Except.ok.inj passed).symm⟩
    · contradiction
  · contradiction

theorem checkEnvelope_ok (A : Authority) (body : Value) (headers : Headers) (requiredScope : String)
    (current : Int) (verified : Verified)
    (passed : checkEnvelope A body headers requiredScope current = .ok verified) :
    ∃ clients client stamped, A.registry = some clients ∧
      matchingClients (textOr A.unicode (body.get "pubkey")) clients = .ok [client] ∧
      parseTimestamp A (textOr A.unicode (body.get "timestamp")) = .ok stamped ∧
      verified = { nonce := textOr A.unicode (body.get "nonce"), principal := clientPrincipal client stamped } := by
  rw [checkEnvelope] at passed
  split at passed
  · contradiction
  split at passed
  · contradiction
  dsimp only at passed
  split at passed
  · contradiction
  split at passed
  · contradiction
  · contradiction
  split at passed
  · contradiction
  rename_i stamped parsed
  split at passed
  · contradiction
  rcases checkClient_ok A _ _ _ _ _ _ _ _ passed with ⟨clients, client, registered, matched, same⟩
  exact ⟨clients, client, stamped, registered, matched, parsed, same⟩

/-- The scope, the headers and the clock decide only whether it passes. -/
theorem checkEnvelope_same (A : Authority) (body body' : Value) (headers headers' : Headers)
    (requiredScope requiredScope' : String) (current current' : Int) (verified verified' : Verified)
    (envelope : ∀ key ∈ envelopeKeys, body'.get key = body.get key)
    (first : checkEnvelope A body headers requiredScope current = .ok verified)
    (second : checkEnvelope A body' headers' requiredScope' current' = .ok verified') :
    verified = verified' := by
  rcases checkEnvelope_ok A _ _ _ _ _ first with ⟨clients, client, stamped, registered, matched, parsed, same⟩
  rcases checkEnvelope_ok A _ _ _ _ _ second with
    ⟨clients', client', stamped', registered', matched', parsed', same'⟩
  rw [envelope "pubkey" (by decide), ← Option.some.inj (registered.symm.trans registered'), matched] at matched'
  rw [envelope "timestamp" (by decide), parsed] at parsed'
  rw [same, same', envelope "nonce" (by decide), Except.ok.inj parsed',
    (List.cons.inj (Except.ok.inj matched')).1]

theorem verify_ok (A : Authority) (now : Moment) (body : Value) (headers : Headers)
    (requiredScope : String) (principal : Principal)
    (passed : verifyAp2Envelope A now body headers requiredScope = .ok principal) :
    ∃ verified store', checkEnvelope A body headers requiredScope now.current = .ok verified ∧
      consumeNonce now.available now.store verified now.sweepClock = .ok store' ∧
      storeAfter A now body headers requiredScope = store' := by
  rw [verifyAp2Envelope] at passed
  split at passed
  · contradiction
  rename_i verified checked
  split at passed
  · contradiction
  rename_i store' consumed
  exact ⟨verified, store', checked, consumed, by simp only [storeAfter, checked, consumed]⟩

theorem storeAfter_of_refused (A : Authority) (now : Moment) (body : Value) (headers : Headers)
    (requiredScope : String) (failure : AuthFailure)
    (refused : verifyAp2Envelope A now body headers requiredScope = .error failure) :
    storeAfter A now body headers requiredScope = now.store := by
  rw [verifyAp2Envelope] at refused
  split at refused
  · rename_i checked
    simp only [storeAfter, checked]
  · rename_i verified checked
    split at refused
    · rename_i unconsumed
      simp only [storeAfter, checked, unconsumed]
    · contradiction

theorem storeAfter_cases (A : Authority) (now : Moment) (body : Value) (headers : Headers)
    (requiredScope : String) : storeAfter A now body headers requiredScope = now.store ∨
      ∃ verified, consumeNonce now.available now.store verified now.sweepClock =
        .ok (storeAfter A now body headers requiredScope) := by
  rw [storeAfter]
  split
  · exact .inl rfl
  · rename_i verified _
    split
    · exact .inl rfl
    · rename_i store' consumed
      exact .inr ⟨verified, consumed⟩

theorem consumed_store (available : Bool) (store store' : NonceStore) (verified : Verified)
    (clock : Int) (consumed : consumeNonce available store verified clock = .ok store') :
    store' = unexpired clock store ++ [(verified.key, verified.principal.expiresAt)] := by
  rw [consumeNonce] at consumed
  split at consumed
  · rw [ExpiringKeys.consume] at consumed
    split at consumed
    · contradiction
    · rename_i kept
      split at kept
      · contradiction
      · rw [← Except.ok.inj consumed, ← Option.some.inj kept]
        rfl
  · contradiction

theorem unexpired_unexpired (earlier clock : Int) (store : NonceStore) (before : earlier ≤ clock) :
    unexpired clock (unexpired earlier store) = unexpired clock store := by
  rw [unexpired, unexpired, ExpiringKeys.sweep, ExpiringKeys.sweep, List.filter_filter]
  apply List.filter_congr
  intro row _
  by_cases kept : clock ≤ row.2
  · simp [kept, before.trans kept]
  · simp [kept]

/-- A request leaves a spent nonce in the store, if it does not come after its expiry. -/
theorem leaves_spent (A : Authority) (row : (String × String) × Int) (store : NonceStore) (call : Ap2Call)
    (spent : row ∈ store) (inTime : call.now.sweepClock ≤ row.2) : row ∈ call.leaves A store := by
  rw [Ap2Call.leaves]
  rcases storeAfter_cases A { call.now with store := store } call.body call.headers call.route.scope with
    same | ⟨verified, consumed⟩
  · rw [same]
    exact spent
  · rw [consumed_store _ _ _ _ _ consumed]
    exact List.mem_append_left _ (List.mem_filter.mpr ⟨spent, by simpa using inTime⟩)

theorem run_spent (A : Authority) (row : (String × String) × Int) (calls : List Ap2Call) :
    ∀ store, row ∈ store → (∀ call ∈ calls, call.now.sweepClock ≤ row.2) →
      row ∈ Runs.run (Ap2Call.leaves A) store calls := by
  induction calls with
  | nil => exact fun store spent _ => spent
  | cons call rest later =>
    intro store spent inTime
    rw [List.forall_mem_cons] at inTime
    rw [Runs.run_cons]
    exact later _ (leaves_spent A row store call spent inTime.1) inTime.2

theorem replay_refused (available : Bool) (store : NonceStore) (verified : Verified) (clock : Int)
    (spent : (verified.key, verified.principal.expiresAt) ∈ store)
    (inTime : clock ≤ verified.principal.expiresAt) (store' : NonceStore) :
    consumeNonce available store verified clock ≠ .ok store' := by
  have present : verified.key ∈ (ExpiringKeys.sweep clock store).map Prod.fst :=
    List.mem_map_of_mem (List.mem_filter.mpr ⟨spent, by simpa using inTime⟩)
  rw [consumeNonce]
  split
  · have taken : ExpiringKeys.consume store (spending verified clock) = none := if_pos present
    rw [taken]
    exact fun absurd => by contradiction
  · exact fun absurd => by contradiction

theorem principal_verified (A : Authority) (route : Ap2Route) (now : Moment) (body : Value)
    (headers : Headers) (principal : Principal)
    (admitted : route.principalOf A now body headers = .ok principal) :
    verifyAp2Envelope A now body headers route.scope = .ok principal := by
  cases route with
  | agents slug =>
    rw [Ap2Route.principalOf, verifyAgentPrincipal] at admitted
    split at admitted
    · contradiction
    · rename_i verified
      split at admitted
      · contradiction
      · exact admitted ▸ verified
  | retrieval laxInt =>
    rw [Ap2Route.principalOf, retrievalPrincipal] at admitted
    split at admitted
    · contradiction
    · rename_i verified
      split at admitted
      · contradiction
      · split at admitted
        · contradiction
        · exact admitted ▸ verified

theorem principal_refused (A : Authority) (route : Ap2Route) (now : Moment) (body : Value)
    (headers : Headers) (failure failure' : AuthFailure)
    (refused : route.principalOf A now body headers = .error failure)
    (unverified : verifyAp2Envelope A now body headers route.scope = .error failure') :
    failure' = failure := by
  cases route with
  | agents slug =>
    rw [Ap2Route.scope] at unverified
    rw [Ap2Route.principalOf, verifyAgentPrincipal, unverified] at refused
    exact Except.error.inj refused
  | retrieval laxInt =>
    rw [Ap2Route.scope] at unverified
    rw [Ap2Route.principalOf, retrievalPrincipal, unverified] at refused
    exact Except.error.inj refused

/-- A request that `verify_ap2_envelope` refuses leaves the store as it was. One that only the binding
refuses has spent its nonce, and nothing else: after it, and any requests that follow while the nonce has not
expired, no request with its envelope is admitted by either route. -/
theorem refused_request_store (A : Authority) (route : Ap2Route) (now : Moment) (body : Value)
    (headers : Headers) (failure : AuthFailure)
    (refused : route.principalOf A now body headers = .error failure) :
    verifyAp2Envelope A now body headers route.scope = .error failure ∧
        storeAfter A now body headers route.scope = now.store ∨
      ∃ verified : Verified, verifyAp2Envelope A now body headers route.scope = .ok verified.principal ∧
        (∀ clock, now.sweepClock ≤ clock →
          unexpired clock (storeAfter A now body headers route.scope) =
            unexpired clock now.store ++
              unexpired clock [(verified.key, verified.principal.expiresAt)]) ∧
        ∀ (between : List Ap2Call) (later : Ap2Call),
          (∀ call ∈ between, call.now.sweepClock ≤ verified.principal.expiresAt) →
            later.now.sweepClock ≤ verified.principal.expiresAt →
              (∀ key ∈ envelopeKeys, later.body.get key = body.get key) →
                ∀ principal, later.answer A (Runs.run (Ap2Call.leaves A)
                  (storeAfter A now body headers route.scope) between) ≠ .ok principal := by
  rcases outcome : verifyAp2Envelope A now body headers route.scope with failure' | principal
  · obtain rfl := principal_refused A route now body headers failure failure' refused outcome
    exact .inl ⟨rfl, storeAfter_of_refused A now body headers route.scope failure' outcome⟩
  · rcases verify_ok A now body headers _ principal outcome with ⟨verified, store', checked, consumed, stored⟩
    have added := consumed_store _ _ store' verified _ consumed
    have own : principal = verified.principal := by
      simp only [verifyAp2Envelope, checked, consumed, Except.ok.injEq] at outcome
      exact outcome.symm
    rw [stored]
    refine .inr ⟨verified, by rw [own], fun clock since => ?_, ?_⟩
    · rw [added, unexpired, ExpiringKeys.sweep, List.filter_append]
      exact congrArg (· ++ _) (unexpired_unexpired now.sweepClock clock now.store since)
    · intro between later inTime onTime envelope principal' admitted
      have spent : (verified.key, verified.principal.expiresAt) ∈ Runs.run (Ap2Call.leaves A) store' between := by
        apply run_spent A _ between store' _ inTime
        rw [added]
        exact List.mem_append_right _ (List.mem_singleton_self _)
      have passed := principal_verified A later.route _ later.body later.headers principal' admitted
      rcases verify_ok A _ later.body later.headers _ principal' passed with
        ⟨again, store'', rechecked, reconsumed, -⟩
      obtain rfl := checkEnvelope_same A body later.body _ _ _ _ _ _ verified again envelope checked rechecked
      exact replay_refused later.now.available _ verified later.now.sweepClock spent onTime store'' reconsumed

/-! A prompt that was changed on the way: the route answers 401, and the nonce is spent. -/

def tamperedCall : AgentRequest := signedRequest.withField "prompt" (str "list the payments")

def forgedCall : AgentRequest := signedRequest.withField "signature" (str "other-signature")

theorem tampered_call_spends :
    ¬∀ (A : Authority) (route : Ap2Route) (now : Moment) (body : Value) (headers : Headers)
      (detail : String), route.principalOf A now body headers = .error (.authentication detail) →
        ∀ clock, now.sweepClock ≤ clock →
          unexpired clock (storeAfter A now body headers route.scope) = unexpired clock now.store := by
  intro kept
  have same := kept signingAuthority (.agents "genesis-research") tamperedCall.now tamperedCall.body
    tamperedCall.headers "ap2_task_mismatch" rfl 1767225600 (le_refl _)
  have spent : unexpired 1767225600 (storeAfter signingAuthority tamperedCall.now tamperedCall.body
      tamperedCall.headers "agent.invoke") = [(("cato", "nonce-0123456789"), 1767225900)] := by decide
  exact absurd (spent.symm.trans same) (by decide)

theorem forged_call_spends_nothing :
    storeAfter signingAuthority forgedCall.now forgedCall.body forgedCall.headers "agent.invoke" =
      forgedCall.now.store := by
  have outcome := refused_request_store signingAuthority (.agents "genesis-research") forgedCall.now
    forgedCall.body forgedCall.headers (.authentication "ap2_signature_invalid") rfl
  rcases outcome with ⟨-, same⟩ | ⟨verified, passed, -⟩
  · exact same
  · contradiction

end GenesisAgents
