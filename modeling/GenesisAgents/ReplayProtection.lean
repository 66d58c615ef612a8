import GenesisAgents.Library.Runs
import GenesisAgents.RequestAuth

/-! Replay protection over whole runs of the gateway. A call of `verify_ap2_envelope` reads the clock
and checks its envelope, reads the clock again for the sweep, and then has its transaction; between
these steps other calls move and the clock goes on. -/

namespace GenesisAgents

/-- Where one call of `verify_ap2_envelope` stands. -/
inductive Phase where
  | checked (verified : Verified)
  | spending (verified : Verified) (sweepClock : Int)
  | returned (verified : Verified)
  | raised (failure : AuthFailure)

namespace Phase

def returnedKey? : Phase → Option (String × String)
  | returned verified => some verified.key
  | _ => none

end Phase

structure GatewayState where
  clock : Int
  store : NonceStore
  calls : List Phase
  /-- The transactions that reached the store, in order. -/
  transactions : List (ExpiringKeys.Consume (String × String) Int)

inductive GatewayEvent where
  | tick (seconds : Nat)
  | arrive (body : Value) (headers : Headers) (requiredScope : String)
  | readClock (call : Nat)
  | transact (call : Nat) (available : Bool)

namespace GatewayState

def start (clock : Int) : GatewayState :=
  { clock := clock, store := [], calls := [], transactions := [] }

def arrive (A : Authority) (σ : GatewayState) (body : Value) (headers : Headers)
    (requiredScope : String) : GatewayState :=
  { σ with
    calls := σ.calls ++ [match checkEnvelope A body headers requiredScope σ.clock with
      | .error failure => .raised failure
      | .ok verified => .checked verified] }

def readClock (σ : GatewayState) (call : Nat) : GatewayState :=
  match σ.calls[call]? with
  | some (.checked verified) => { σ with calls := σ.calls.set call (.spending verified σ.clock) }
  | _ => σ

def transact (σ : GatewayState) (call : Nat) (available : Bool) : GatewayState :=
  match σ.calls[call]? with
  | some (.spending verified sweepClock) =>
    let logged := if available then σ.transactions ++ [spending verified sweepClock]
      else σ.transactions
    match consumeNonce available σ.store verified sweepClock with
    | .error failure =>
      { σ with calls := σ.calls.set call (.raised failure), transactions := logged }
    | .ok store =>
      { σ with store := store, calls := σ.calls.set call (.returned verified)
               transactions := logged }
  | _ => σ

def step (A : Authority) (σ : GatewayState) : GatewayEvent → GatewayState
  | .tick seconds => { σ with clock := σ.clock + seconds }
  | .arrive body headers requiredScope => arrive A σ body headers requiredScope
  | .readClock call => readClock σ call
  | .transact call available => transact σ call available

def run (A : Authority) (σ : GatewayState) (events : List GatewayEvent) : GatewayState :=
  Runs.run (step A) σ events

def returnedKeys (σ : GatewayState) : List (String × String) :=
  σ.calls.filterMap Phase.returnedKey?

/-- No two calls with the same client and nonce returned a principal. -/
def AcceptedOnce (σ : GatewayState) : Prop := σ.returnedKeys.Nodup

end GatewayState

open GatewayState

/-! The returned keys are those whose transactions committed. -/

def Accounted (σ : GatewayState) : Prop :=
  ExpiringKeys.Accounts σ.store σ.transactions σ.returnedKeys

theorem arrive_accounted (A : Authority) (σ : GatewayState) (body : Value) (headers : Headers)
    (requiredScope : String) (holds : Accounted σ) :
    Accounted (arrive A σ body headers requiredScope) := by
  refine holds.rearrange ?_
  rw [arrive, returnedKeys, List.filterMap_append]
  cases checkEnvelope A body headers requiredScope σ.clock <;>
    exact (List.append_nil _).symm ▸ List.Perm.refl _

theorem readClock_accounted (σ : GatewayState) (call : Nat) (holds : Accounted σ) :
    Accounted (readClock σ call) := by
  rw [readClock]
  split
  · rename_i verified present
    have same := Runs.filterMap_set Phase.returnedKey? σ.calls call _ (.spending verified σ.clock)
      present rfl
    exact holds.rearrange (same.trans (by simp [Phase.returnedKey?, returnedKeys]))
  · exact holds

theorem transact_accounted (σ : GatewayState) (call : Nat) (available : Bool)
    (holds : Accounted σ) : Accounted (transact σ call available) := by
  rw [transact]
  split
  · rename_i verified sweepClock present
    have outcome (phase : Phase) :=
      Runs.filterMap_set Phase.returnedKey? σ.calls call _ phase present rfl
    rw [consumeNonce]
    cases available
    · refine holds.rearrange ((outcome _).trans ?_)
      simp [Phase.returnedKey?, returnedKeys]
    · rcases consumed : ExpiringKeys.consume σ.store (spending verified sweepClock) with _ | store
      · refine (holds.refuse consumed).rearrange ((outcome _).trans ?_)
        simp [Phase.returnedKey?, returnedKeys]
      · exact (holds.commit consumed).rearrange (outcome _)
  · exact holds

theorem step_accounted (A : Authority) (σ : GatewayState) (event : GatewayEvent)
    (holds : Accounted σ) : Accounted (step A σ event) := by
  cases event with
  | tick seconds => exact holds
  | arrive body headers requiredScope => exact arrive_accounted A σ body headers requiredScope holds
  | readClock call => exact readClock_accounted σ call holds
  | transact call available => exact transact_accounted σ call available holds

theorem run_accounted (A : Authority) (clock : Int) (events : List GatewayEvent) :
    Accounted (run A (start clock) events) :=
  Runs.run_always (step A) Accounted (step_accounted A) events _ ExpiringKeys.Accounts.start

/-- A run accepts no client and nonce twice exactly when no sweep comes too early for one. -/
theorem acceptedOnce_iff_timely (A : Authority) (clock : Int) (events : List GatewayEvent) :
    (run A (start clock) events).AcceptedOnce ↔
      ExpiringKeys.Timely (run A (start clock) events).transactions := by
  exact (run_accounted A clock events).nodup_iff

/-! The same envelope, twice in its last second: the second sweep already reads the next second. -/

def replayAuthority : Authority where
  unicode := { lower := id, printable := fun _ => true }
  fromisoformat text :=
    if text = "2026-01-01T00:00:00+00:00" then .aware 1767225600 else .invalid
  ed25519 pubkeyB64 signatureB64 _ := pubkeyB64 == "cato-key" && signatureB64 == "cato-signature"
  registry := some [
    { enabled := true, pubkeyB64 := "cato-key", clientId := "cato", principalId := "user:1"
      tenantId := "tenant-1", capabilities := ["agent.invoke"] }]

def replayedEnvelope : Value :=
  .dict [("version", .int 1), ("payload", .dict [("agent", .str "genesis-email")]),
    ("nonce", .str "nonce-0123456789"), ("timestamp", .str "2026-01-01T00:00:00Z"),
    ("pubkey", .str "cato-key"), ("signature", .str "cato-signature")]

def replayHeaders : Headers := ⟨some "1", some "cato-key"⟩

def replaySchedule : List GatewayEvent :=
  [.arrive replayedEnvelope replayHeaders "agent.invoke", .readClock 0, .transact 0 true,
   .arrive replayedEnvelope replayHeaders "agent.invoke", .tick 1, .readClock 1, .transact 1 true]

theorem envelope_replayed :
    ¬∀ (A : Authority) (clock : Int) (events : List GatewayEvent),
      (run A (start clock) events).AcceptedOnce := by
  intro once
  have keys : (run replayAuthority (start 1767225900) replaySchedule).returnedKeys =
      [("cato", "nonce-0123456789"), ("cato", "nonce-0123456789")] := by decide
  have distinct := once replayAuthority 1767225900 replaySchedule
  rw [AcceptedOnce, keys] at distinct
  exact absurd distinct (by decide)

end GenesisAgents
