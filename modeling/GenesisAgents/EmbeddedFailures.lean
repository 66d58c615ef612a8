import GenesisAgents.JudgeReplies
import Mathlib.Data.List.Infix

/-! Which embedded failures are scored as failures: those in the first place where `embedded_envelope` finds
an envelope. -/

namespace GenesisAgents.Rubrics

open Value

theorem findSome?_tails {α β : Type} (h : List α → Option β) (l : List α) (b : β) : l.tails.findSome? h = some b ↔
    ∃ before rest, l = before ++ rest ∧ h rest = some b ∧
      ∀ earlier later, l = earlier ++ later → earlier.length < before.length → h later = none := by
  induction l with
  | nil =>
    constructor
    · intro found
      refine ⟨[], [], rfl, by simpa using found, by simp⟩
    · rintro ⟨before, rest, split, found, -⟩
      obtain ⟨rfl, rfl⟩ := List.append_eq_nil_iff.mp split.symm
      simpa using found
  | cons a l later =>
    rw [List.tails_cons, List.findSome?_cons]
    rcases here : h (a :: l) with _ | c
    · dsimp only
      rw [later]
      constructor
      · rintro ⟨before, rest, rfl, found, first⟩
        refine ⟨a :: before, rest, rfl, found, fun earlier other split shorter => ?_⟩
        cases earlier with
        | nil =>
          rw [List.nil_append] at split
          rwa [← split]
        | cons _ earlier =>
          obtain ⟨-, same⟩ := List.cons.inj split
          exact first earlier other same (by simpa using shorter)
      · rintro ⟨before, rest, split, found, first⟩
        cases before with
        | nil =>
          rw [List.nil_append] at split
          rw [← split, here] at found
          cases found
        | cons head before =>
          obtain ⟨rfl, same⟩ := List.cons.inj split
          refine ⟨before, rest, same, found, fun earlier other cut shorter => ?_⟩
          exact first (a :: earlier) other (by rw [cut]; rfl) (by simpa using shorter)
    · constructor
      · intro found
        exact ⟨[], a :: l, rfl, here.trans found, by simp⟩
      · rintro ⟨before, rest, split, found, first⟩
        cases before with
        | nil =>
          rw [List.nil_append] at split
          rw [← split, here] at found
          exact found
        | cons head before =>
          have none_ := first [] (a :: l) rfl (by simp)
          rw [here] at none_
          cases none_

section

variable (S : Scoring)

/-- The text is a JSON object with the boolean `ok`. -/
def IsEnvelope (candidate : String) (ok : Bool) : Prop :=
  ∃ items, S.loads candidate = some (dict items) ∧ items.lookup "ok" = some (Value.bool ok)

/-- Somewhere in the response stands an object that reports a failure. -/
def Contains (response : String) : Prop :=
  ∃ before object after, response.toList = before ++ object ++ after ∧ IsEnvelope S (String.ofList object) false

/-- An object that reports a failure, in the first of these places that holds an envelope: the whole response,
the first fenced block, and the objects that begin with their `ok`, from left to right. -/
def Seen (response : String) : Prop :=
  mentionsOk response = true ∧ ∃ candidate, IsEnvelope S candidate false ∧
    (wholeCandidate response = some candidate ∨
      (∀ whole ok, wholeCandidate response = some whole → ¬IsEnvelope S whole ok) ∧
        (fencedCandidate response = some candidate ∨
          (∀ fenced ok, fencedCandidate response = some fenced → ¬IsEnvelope S fenced ok) ∧
            ∃ before rest, response.toList = before ++ rest ∧ markedAt rest = some candidate ∧
              ∀ earlier later other ok, response.toList = earlier ++ later → earlier.length < before.length →
                markedAt later = some other → ¬IsEnvelope S other ok))

theorem envelopeOf_eq_some (candidate : String) (envelope : Value) : envelopeOf S candidate = some envelope ↔
    ∃ items ok, S.loads candidate = some (dict items) ∧ items.lookup "ok" = some (Value.bool ok) ∧
      envelope = dict items := by
  rw [envelopeOf]
  split
  · rename_i items loaded
    split
    · rename_i ok found
      simp [loaded, found, eq_comm]
    · rename_i no_bool
      refine iff_of_false (by simp) ?_
      rintro ⟨others, ok, same, found, -⟩
      obtain rfl : items = others := by simpa using loaded.symm.trans same
      exact no_bool ok found
  · rename_i no_dict
    refine iff_of_false (by simp) ?_
    rintro ⟨items, ok, loaded, -⟩
    exact no_dict items loaded

theorem envelopeOf_eq_none (candidate : String) : envelopeOf S candidate = none ↔ ∀ ok, ¬IsEnvelope S candidate ok := by
  rw [Option.eq_none_iff_forall_ne_some]
  constructor
  · rintro none_ ok ⟨items, loaded, found⟩
    exact none_ (dict items) ((envelopeOf_eq_some S candidate _).mpr ⟨items, ok, loaded, found, rfl⟩)
  · rintro none_ envelope some_
    rcases (envelopeOf_eq_some S candidate envelope).mp some_ with ⟨items, ok, loaded, found, -⟩
    exact none_ ok ⟨items, loaded, found⟩

theorem envelopeOf_failure (candidate : String) :
    (∃ envelope, envelopeOf S candidate = some envelope ∧ reportsFailure envelope = true) ↔
      IsEnvelope S candidate false := by
  constructor
  · rintro ⟨envelope, found, failed⟩
    rcases (envelopeOf_eq_some S candidate envelope).mp found with ⟨items, ok, loaded, carried, rfl⟩
    rw [reportsFailure, show (dict items).get? "ok" = items.lookup "ok" from rfl, carried] at failed
    cases ok with
    | false => exact ⟨items, loaded, carried⟩
    | true => cases failed
  · rintro ⟨items, loaded, carried⟩
    refine ⟨dict items, (envelopeOf_eq_some S candidate _).mpr ⟨items, false, loaded, carried, rfl⟩, ?_⟩
    rw [reportsFailure, show (dict items).get? "ok" = items.lookup "ok" from rfl, carried]

theorem embeddedEnvelope_eq_some (response : String) (envelope : Value) :
    embeddedEnvelope S response = some envelope ↔ mentionsOk response = true ∧
      ((wholeCandidate response).bind (envelopeOf S) = some envelope ∨
        (wholeCandidate response).bind (envelopeOf S) = none ∧
          ((fencedCandidate response).bind (envelopeOf S) = some envelope ∨
            (fencedCandidate response).bind (envelopeOf S) = none ∧
              (response.toList.tails.findSome? fun s => (markedAt s).bind (envelopeOf S)) = some envelope)) := by
  have toList (o : Option String) : o.toList.findSome? (envelopeOf S) = o.bind (envelopeOf S) := by
    cases o <;> simp
  have marked : (response.toList.tails.filterMap markedAt).findSome? (envelopeOf S) =
      response.toList.tails.findSome? fun s => (markedAt s).bind (envelopeOf S) := by
    induction response.toList.tails with
    | nil => rfl
    | cons s rest later =>
      rw [List.filterMap_cons, List.findSome?_cons]
      rcases markedAt s with _ | block
      · exact later
      · rw [List.findSome?_cons, Option.bind_some, later]
  rw [embeddedEnvelope, candidates, List.findSome?_append, List.findSome?_append, toList, toList, markedCandidates,
    marked]
  cases mentionsOk response with
  | false => simp
  | true =>
    rw [Option.or_assoc]
    simp [Option.or_eq_some_iff]

/-- An embedded failure is found exactly when it is in the first place that holds an envelope. -/
theorem embeddedEnvelope_failure (response : String) :
    (∃ envelope, (embeddedEnvelope S response).filter reportsFailure = some envelope) ↔ Seen S response := by
  have place (o : Option String) : (∃ envelope, o.bind (envelopeOf S) = some envelope ∧
      reportsFailure envelope = true) ↔ ∃ candidate, IsEnvelope S candidate false ∧ o = some candidate := by
    cases o with
    | none => simp
    | some candidate =>
      rw [Option.bind_some, envelopeOf_failure]
      simp
  have empty (o : Option String) : o.bind (envelopeOf S) = none ↔
      ∀ candidate ok, o = some candidate → ¬IsEnvelope S candidate ok := by
    cases o with
    | none => simp
    | some candidate =>
      rw [Option.bind_some, envelopeOf_eq_none]
      exact ⟨fun none_ other ok same => Option.some.inj same ▸ none_ ok, fun none_ ok => none_ candidate ok rfl⟩
  simp only [Option.filter_eq_some_iff, embeddedEnvelope_eq_some, findSome?_tails, Seen, empty]
  constructor
  · rintro ⟨envelope, ⟨mentions, whole | ⟨no_whole, fenced | ⟨no_fenced, before, rest, split, marked, first⟩⟩⟩, failed⟩
    · rcases (place _).mp ⟨envelope, whole, failed⟩ with ⟨candidate, failure, there⟩
      exact ⟨mentions, candidate, failure, .inl there⟩
    · rcases (place _).mp ⟨envelope, fenced, failed⟩ with ⟨candidate, failure, there⟩
      exact ⟨mentions, candidate, failure, .inr ⟨no_whole, .inl there⟩⟩
    · rcases (place _).mp ⟨envelope, marked, failed⟩ with ⟨candidate, failure, there⟩
      refine ⟨mentions, candidate, failure, .inr ⟨no_whole, .inr ⟨no_fenced, before, rest, split, there, ?_⟩⟩⟩
      exact fun earlier later other ok cut shorter => first earlier later cut shorter other ok
  · rintro ⟨mentions, candidate, failure, whole | ⟨no_whole, fenced |
      ⟨no_fenced, before, rest, split, marked, first⟩⟩⟩
    · rcases (place _).mpr ⟨candidate, failure, whole⟩ with ⟨envelope, found, failed⟩
      exact ⟨envelope, ⟨mentions, .inl found⟩, failed⟩
    · rcases (place _).mpr ⟨candidate, failure, fenced⟩ with ⟨envelope, found, failed⟩
      exact ⟨envelope, ⟨mentions, .inr ⟨no_whole, .inl found⟩⟩, failed⟩
    · rcases (place _).mpr ⟨candidate, failure, marked⟩ with ⟨envelope, found, failed⟩
      refine ⟨envelope, ⟨mentions, .inr ⟨no_whole, .inr ⟨no_fenced, before, rest, split, found, ?_⟩⟩⟩, failed⟩
      exact fun earlier later cut shorter other ok => first earlier later other ok cut shorter

/-- The example fails, and the judge is not called. -/
def FailsUnjudged (judge : Judge) (rubrics : List Rubric) (inputs outputs : Value) (exampleId : String) : Prop :=
  (scoreExample S judge rubrics inputs outputs exampleId).calls = 0 ∧
    ∃ score, (scoreExample S judge rubrics inputs outputs exampleId).result = .ok score ∧ score.status = .fail

structure FairTurn (outputs : Value) : Prop where
  determinate : indeterminate outputs = false
  allowed : (outputs.get "error_kind").pyEq (str "blocked_money_domain") = false
  delivered : harnessErrorOutcomes.contains (((outputs.get "outcome").orElse (str "")).text S.unicode) = false

theorem judgeAll_calls (judge : Judge) (rubrics : List Rubric) (calls : Nat) :
    calls ≤ (judgeAll S judge rubrics calls).1 ∧ (rubrics ≠ [] → calls < (judgeAll S judge rubrics calls).1) := by
  induction rubrics generalizing calls with
  | nil => exact ⟨le_rfl, by simp⟩
  | cons rubric rest later =>
    rw [judgeAll]
    rcases judgeOne S rubric (judge calls) with failure | verdict
    · exact ⟨Nat.le_succ _, fun _ => Nat.lt_succ_self _⟩
    · have more := (later (calls + 1)).1
      exact ⟨by dsimp only; omega, fun _ => by dsimp only; omega⟩

theorem not_failsUnjudged (judge : Judge) (rubrics : List Rubric) (inputs outputs : Value) (exampleId : String)
    (reaches : reachesJudge S outputs = true) :
    ¬FailsUnjudged S judge rubrics inputs outputs exampleId := by
  rintro ⟨uncalled, score, result, failed⟩
  rcases scoreExample_judged S judge rubrics inputs outputs exampleId reaches with ⟨calls, status⟩
  rw [calls] at uncalled
  by_cases none_ : rubrics = []
  · rw [result, none_, judgeAll] at status
    have error : score.status = .error := Except.ok.inj status
    rw [error] at failed
    cases failed
  · have called := (judgeAll_calls S judge rubrics 0).2 none_
    omega

/-- After a fair turn the example fails unjudged exactly when the response is blank or its failure is seen. -/
theorem failsUnjudged_iff (judge : Judge) (rubrics : List Rubric) (inputs outputs : Value) (exampleId : String)
    (fair : FairTurn S outputs) : FailsUnjudged S judge rubrics inputs outputs exampleId ↔
      (strip (responseText outputs)).isEmpty = true ∨ Seen S (responseText outputs) := by
  have reaches_iff : reachesJudge S outputs = true ↔
      ¬((strip (responseText outputs)).isEmpty = true ∨ Seen S (responseText outputs)) := by
    rw [← embeddedEnvelope_failure, reachesJudge, fair.determinate, fair.allowed, fair.delivered]
    rcases (embeddedEnvelope S (responseText outputs)).filter reportsFailure with _ | envelope <;> simp
  by_cases reaches : reachesJudge S outputs = true
  · exact iff_of_false (not_failsUnjudged S judge rubrics inputs outputs exampleId reaches) (reaches_iff.mp reaches)
  · have found := not_not.mp (mt reaches_iff.mpr reaches)
    refine iff_of_true ?_ found
    rw [FailsUnjudged, scoreExample, fair.determinate, fair.allowed, fair.delivered]
    simp only [Bool.false_eq_true, if_false]
    by_cases blank : (strip (responseText outputs)).isEmpty = true
    · rw [if_pos blank]
      exact ⟨rfl, _, rfl, rfl⟩
    · rw [if_neg blank]
      rcases (embeddedEnvelope_failure S (responseText outputs)).mpr (found.resolve_left blank) with ⟨envelope, failure⟩
      rw [failure]
      exact ⟨rfl, _, rfl, rfl⟩

/-- A response that contains a failure is scored as one exactly when the failure is seen. -/
theorem contained_failure_iff (judge : Judge) (rubrics : List Rubric) (inputs outputs : Value) (exampleId : String)
    (fair : FairTurn S outputs) :
    (Contains S (responseText outputs) → FailsUnjudged S judge rubrics inputs outputs exampleId) ↔
      (Contains S (responseText outputs) →
        (strip (responseText outputs)).isEmpty = true ∨ Seen S (responseText outputs)) := by
  rw [failsUnjudged_iff S judge rubrics inputs outputs exampleId fair]

theorem seen_whole (response : String) (mentions : mentionsOk response = true)
    (opens : (strip response).toList.head? = some '\x7b') (failure : IsEnvelope S (strip response) false) :
    Seen S response :=
  ⟨mentions, strip response, failure, .inl (if_pos opens)⟩

theorem seen_fenced (response block : String) (mentions : mentionsOk response = true)
    (prose : (strip response).toList.head? ≠ some '\x7b') (fenced : fencedCandidate response = some block)
    (failure : IsEnvelope S block false) : Seen S response := by
  refine ⟨mentions, block, failure, .inr ⟨fun whole ok same => ?_, .inl fenced⟩⟩
  rw [wholeCandidate, if_neg prose] at same
  cases same

end

/-! A failure whose `ok` comes first, and one whose `ok` comes second. -/

/-- `json.loads` of the texts below. -/
def failureScoring : Scoring where
  unicode := { lower := fun s => s, printable := fun _ => true }
  loads text :=
    if text = "\x7b\"ok\": false\x7d" then some (dict [("ok", Value.bool false)])
    else if text = "\x7b\"id\": 7, \"ok\": false\x7d" then some (dict [("id", int 7), ("ok", Value.bool false)])
    else none

def answeredWith (response : String) : Value := dict [("outcome", str "success"), ("response", str response)]

theorem answeredWith_fair (response : String) : FairTurn failureScoring (answeredWith response) where
  determinate := rfl
  allowed := rfl
  delivered := by
    change harnessErrorOutcomes.contains "success" = false
    decide

def silentJudge : Judge := fun _ => .ok ""

theorem first_member_seen : Seen failureScoring "Result: \x7b\"ok\": false\x7d" :=
  (embeddedEnvelope_failure _ _).mp ⟨dict [("ok", Value.bool false)], by rfl⟩

theorem first_member_fails :
    FailsUnjudged failureScoring silentJudge rubrics (dict []) (answeredWith "Result: \x7b\"ok\": false\x7d") "" := by
  refine (contained_failure_iff failureScoring silentJudge rubrics (dict []) _ "" (answeredWith_fair _)).mpr
    (fun _ => .inr first_member_seen) ?_
  refine ⟨"Result: ".toList, "\x7b\"ok\": false\x7d".toList, [], by decide, ?_⟩
  exact ⟨[("ok", Value.bool false)], by rfl, by rfl⟩

/-- The failure stands between prose, with another member before its `ok`. -/
theorem second_member_judged : ¬(Contains failureScoring "Result: \x7b\"id\": 7, \"ok\": false\x7d." →
    FailsUnjudged failureScoring silentJudge rubrics (dict [])
      (answeredWith "Result: \x7b\"id\": 7, \"ok\": false\x7d.") "") := by
  intro fails
  have contains : Contains failureScoring "Result: \x7b\"id\": 7, \"ok\": false\x7d." := by
    refine ⟨"Result: ".toList, "\x7b\"id\": 7, \"ok\": false\x7d".toList, ".".toList, by decide, ?_⟩
    exact ⟨[("id", int 7), ("ok", Value.bool false)], by rfl, by rfl⟩
  rcases (failsUnjudged_iff _ _ _ _ _ _ (answeredWith_fair _)).mp (fails contains) with blank | seen
  · exact absurd blank (by decide)
  · rcases (embeddedEnvelope_failure _ _).mpr seen with ⟨envelope, found⟩
    have nothing : embeddedEnvelope failureScoring "Result: \x7b\"id\": 7, \"ok\": false\x7d." = none := by rfl
    rw [show responseText (answeredWith "Result: \x7b\"id\": 7, \"ok\": false\x7d.") =
      "Result: \x7b\"id\": 7, \"ok\": false\x7d." from rfl, nothing] at found
    cases found

end GenesisAgents.Rubrics
