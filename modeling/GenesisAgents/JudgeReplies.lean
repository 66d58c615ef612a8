import GenesisAgents.Rubrics

/-! The replies of the judge: when a score is the one the reply states, and when an example passes. -/

namespace GenesisAgents.Rubrics

open Value

section

variable (S : Scoring)

/-- The score of an object is a number equal to `s`. -/
def StatesScore (obj : Value) (s : Int) : Prop :=
  obj.get? "score" = some (int s) ∨ ∃ x, obj.get? "score" = some (float x) ∧ x.exact = some (s : Rat)

/-- The JSON object of the reply states the score `s`, which is on the scale. -/
def Scores (rubric : Rubric) (reply : String) (s : Int) : Prop :=
  (strip reply).isEmpty = false ∧ StatesScore (replyObject S reply) s ∧ s ∈ rubric.levels

/-- The score that is returned is the one of the reply, or the reply breaks the protocol. -/
def ParsesHonestly (rubric : Rubric) (reply : String) : Prop :=
  (∃ s reasoning, parseJudgeReply S reply rubric = .ok (s, reasoning) ∧ Scores S rubric reply s) ∨
    ∃ message, parseJudgeReply S reply rubric = .error (.judgeProtocol message)

/-- A score with a point is finite, and where its whole part is on the scale it is whole. -/
def Truthful (rubric : Rubric) (reply : String) : Prop :=
  (strip reply).isEmpty = false → ∀ x, (replyObject S reply).get? "score" = some (float x) →
    ∃ q, x.exact = some q ∧ (q.num.tdiv q.den ∈ rubric.levels → q.den = 1)

theorem parse_number (rubric : Rubric) (reply : String) (filled : (strip reply).isEmpty = false) (raw : Value)
    (stated : (replyObject S reply).get? "score" = some raw) (number : (∃ n, raw = int n) ∨ ∃ x, raw = float x) :
    (∃ failure, toInteger raw = .error failure ∧ parseJudgeReply S reply rubric = .error failure) ∨
      ∃ score, toInteger raw = .ok score ∧
        ((score ∈ rubric.levels ∧ ∃ reasoning, parseJudgeReply S reply rubric = .ok (score, reasoning)) ∨
          (score ∉ rubric.levels ∧ ∃ message, parseJudgeReply S reply rubric = .error (.judgeProtocol message))) := by
  have parsed : parseJudgeReply S reply rubric = (do
      let score ← toInteger raw
      if score ∈ rubric.levels then
        .ok (score, strip (((replyObject S reply).getD "reasoning" (str "")).text S.unicode))
      else .error (.judgeProtocol (rubric.name ++ ": score " ++ toString score ++ " is not on the scale " ++
        (list (rubric.levels.dedup.map int)).repr S.unicode))) := by
    rw [parseJudgeReply, if_neg (by rw [filled]; decide), stated]
    rcases number with ⟨n, rfl⟩ | ⟨x, rfl⟩ <;> rfl
  rw [parsed]
  rcases read : toInteger raw with failure | score
  · exact .inl ⟨failure, rfl, rfl⟩
  · refine .inr ⟨score, rfl, ?_⟩
    by_cases listed : score ∈ rubric.levels
    · exact .inl ⟨listed, _, if_pos listed⟩
    · exact .inr ⟨listed, _, if_neg listed⟩

theorem parse_no_number (rubric : Rubric) (reply : String)
    (no_number : (strip reply).isEmpty = true ∨ ∀ raw, (replyObject S reply).get? "score" = some raw →
      (∀ n, raw ≠ int n) ∧ ∀ x, raw ≠ float x) :
    ∃ message, parseJudgeReply S reply rubric = .error (.judgeProtocol message) := by
  rw [parseJudgeReply]
  by_cases blank : (strip reply).isEmpty = true
  · rw [if_pos blank]
    exact ⟨_, rfl⟩
  · rw [if_neg blank]
    rcases stated : (replyObject S reply).get? "score" with _ | raw
    · exact ⟨_, rfl⟩
    · have other := (no_number.resolve_left blank) raw stated
      cases raw with
      | int n => exact absurd rfl (other.1 n)
      | float x => exact absurd rfl (other.2 x)
      | _ => exact ⟨_, rfl⟩

theorem whole_iff (q : Rat) : q = (q.num.tdiv q.den : Int) ↔ q.den = 1 := by
  constructor
  · intro same
    rw [same]
    exact Rat.den_intCast _
  · intro whole
    rw [whole, show ((1 : Nat) : Int) = 1 from rfl, Int.tdiv_one]
    exact ((Rat.den_eq_one_iff q).mp whole).symm

theorem toInteger_failure (x : PyFloat) (unbounded : x.exact = none) :
    ∃ failure, toInteger (float x) = .error failure ∧ ∀ message, failure ≠ .judgeProtocol message := by
  rw [toInteger, unbounded]
  dsimp only
  split
  · exact ⟨_, rfl, by simp⟩
  · exact ⟨_, rfl, by simp⟩

theorem parsesHonestly_float (rubric : Rubric) (reply : String) (filled : (strip reply).isEmpty = false) (x : PyFloat)
    (stated : (replyObject S reply).get? "score" = some (float x)) (q : Rat) (value : x.exact = some q) :
    ParsesHonestly S rubric reply ↔ (q.num.tdiv q.den ∈ rubric.levels → q.den = 1) := by
  have cut : toInteger (float x) = .ok (q.num.tdiv q.den) := by rw [toInteger, value]
  rcases parse_number S rubric reply filled _ stated (.inr ⟨x, rfl⟩) with ⟨failure, failed, -⟩ | ⟨score, read, parsed⟩
  · rw [cut] at failed
    cases failed
  obtain rfl : q.num.tdiv q.den = score := Except.ok.inj (cut.symm.trans read)
  rcases parsed with ⟨listed, reasoning, ok⟩ | ⟨unlisted, message, refused⟩
  · constructor
    · rintro (⟨s, comment, same, -, states, -⟩ | ⟨message, refused⟩) -
      · obtain ⟨rfl, -⟩ := Prod.mk.inj (Except.ok.inj (ok.symm.trans same))
        rcases states with whole | ⟨y, found, exact_⟩
        · rw [stated] at whole
          cases whole
        · rw [stated] at found
          cases found
          rw [value] at exact_
          exact (whole_iff q).mp (Option.some.inj exact_)
      · rw [ok] at refused
        cases refused
    · intro whole
      refine .inl ⟨_, reasoning, ok, filled, .inr ⟨x, stated, ?_⟩, listed⟩
      rw [value, ← (whole_iff q).mpr (whole listed)]
  · exact iff_of_true (.inr ⟨message, refused⟩) fun listed => absurd listed unlisted

theorem not_parsesHonestly_float (rubric : Rubric) (reply : String) (filled : (strip reply).isEmpty = false)
    (x : PyFloat) (stated : (replyObject S reply).get? "score" = some (float x)) (unbounded : x.exact = none) :
    ¬ParsesHonestly S rubric reply := by
  rcases toInteger_failure x unbounded with ⟨failure, failed, other⟩
  rcases parse_number S rubric reply filled _ stated (.inr ⟨x, rfl⟩) with ⟨raised, failed', parsed⟩ | ⟨score, read, -⟩
  · obtain rfl : failure = raised := Except.error.inj (failed.symm.trans failed')
    rintro (⟨s, reasoning, ok, -⟩ | ⟨message, refused⟩)
    · rw [parsed] at ok
      cases ok
    · exact other message (Except.error.inj (parsed.symm.trans refused))
  · rw [failed] at read
    cases read

/-- A reply is parsed honestly exactly when its score is no fraction between two levels, and finite. -/
theorem parsesHonestly_iff (rubric : Rubric) (reply : String) :
    ParsesHonestly S rubric reply ↔ Truthful S rubric reply := by
  by_cases blank : (strip reply).isEmpty = true
  · refine iff_of_true (.inr (parse_no_number S rubric reply (.inl blank))) fun filled => ?_
    exact absurd (blank.symm.trans filled) (by decide)
  have filled : (strip reply).isEmpty = false := by simpa using blank
  have float_iff : (∃ x, (replyObject S reply).get? "score" = some (float x)) ∨
      ∀ x, (replyObject S reply).get? "score" ≠ some (float x) :=
    or_iff_not_imp_left.mpr not_exists.mp
  rcases float_iff with ⟨x, stated⟩ | no_float
  · have truthful_iff : Truthful S rubric reply ↔
        ∃ q, x.exact = some q ∧ (q.num.tdiv q.den ∈ rubric.levels → q.den = 1) := by
      refine ⟨fun truthful => truthful filled x stated, fun whole _ y found => ?_⟩
      obtain rfl : x = y := by simpa using stated.symm.trans found
      exact whole
    rw [truthful_iff]
    rcases value : x.exact with _ | q
    · exact iff_of_false (not_parsesHonestly_float S rubric reply filled x stated value) (by simp)
    · rw [parsesHonestly_float S rubric reply filled x stated q value]
      simp
  · refine iff_of_true ?_ fun _ x found => absurd found (no_float x)
    rcases stated : (replyObject S reply).get? "score" with _ | raw
    · exact .inr (parse_no_number S rubric reply (.inr (by simp [stated])))
    by_cases whole : ∃ n, raw = int n
    · rcases whole with ⟨n, rfl⟩
      rcases parse_number S rubric reply filled _ stated (.inl ⟨n, rfl⟩) with ⟨failure, failed, -⟩ |
        ⟨score, read, ⟨listed, reasoning, ok⟩ | ⟨-, message, refused⟩⟩
      · cases failed
      · obtain rfl : n = score := Except.ok.inj read
        exact .inl ⟨n, reasoning, ok, filled, .inl stated, listed⟩
      · exact .inr ⟨message, refused⟩
    · refine .inr (parse_no_number S rubric reply (.inr fun v found => ?_))
      obtain rfl : raw = v := Option.some.inj (stated.symm.trans found)
      exact ⟨fun n same => whole ⟨n, same⟩, fun x same => no_float x (by rw [stated, same])⟩

def verdictOf (rubric : Rubric) (reply : String) : Verdict :=
  match parseJudgeReply S reply rubric with
  | .ok (score, reasoning) =>
    { rubric := rubric.name, dimension := rubric.dimension, score := some score, maxScore := rubric.maxScore
      status := if rubric.passed score then .pass else .fail, comment := reasoning, source := .judge }
  | .error failure =>
    { rubric := rubric.name, dimension := rubric.dimension, score := none, maxScore := rubric.maxScore
      status := .error
      comment := match failure with
        | .judgeProtocol message => message
        | _ => ""
      source := .judge }

theorem judgeOne_honest (rubric : Rubric) (reply : String) (honest : ParsesHonestly S rubric reply) :
    judgeOne S rubric (.ok reply) = .ok (verdictOf S rubric reply) := by
  rcases honest with ⟨s, reasoning, ok, -⟩ | ⟨message, refused⟩
  · simp [judgeOne, verdictOf, Except.bind, ok]
  · simp [judgeOne, verdictOf, Except.bind, refused]

theorem judgeAll_honest (replies : Nat → String) (rubrics : List Rubric) (calls : Nat)
    (honest : ∀ entry ∈ rubrics.zipIdx calls, ParsesHonestly S entry.1 (replies entry.2)) :
    judgeAll S (fun i => .ok (replies i)) rubrics calls =
      (calls + rubrics.length,
        .ok ((rubrics.zipIdx calls).map fun entry => verdictOf S entry.1 (replies entry.2))) := by
  induction rubrics generalizing calls with
  | nil => rfl
  | cons rubric rest later =>
    rw [List.zipIdx_cons, List.forall_mem_cons] at honest
    rw [judgeAll, judgeOne_honest S rubric _ honest.1]
    dsimp only
    rw [later _ honest.2, List.zipIdx_cons, List.map_cons, List.length_cons, Nat.add_right_comm]
    rfl

theorem scores_parsed (rubric : Rubric) (reply : String) (s : Int) (scores : Scores S rubric reply s) :
    ∃ reasoning, parseJudgeReply S reply rubric = .ok (s, reasoning) := by
  rcases scores with ⟨filled, states, listed⟩
  have number : ∃ raw, (replyObject S reply).get? "score" = some raw ∧ toInteger raw = .ok s ∧
      ((∃ n, raw = int n) ∨ ∃ x, raw = float x) := by
    rcases states with stated | ⟨x, stated, value⟩
    · exact ⟨_, stated, rfl, .inl ⟨s, rfl⟩⟩
    · refine ⟨_, stated, ?_, .inr ⟨x, rfl⟩⟩
      rw [toInteger, value]
      exact congrArg Except.ok (Int.tdiv_one s)
  rcases number with ⟨raw, stated, cut, kind⟩
  rcases parse_number S rubric reply filled raw stated kind with ⟨failure, failed, -⟩ | ⟨score, read, parsed⟩
  · rw [cut] at failed
    cases failed
  obtain rfl : s = score := Except.ok.inj (cut.symm.trans read)
  rcases parsed with ⟨-, returned⟩ | ⟨unlisted, -⟩
  · exact returned
  · exact absurd listed unlisted

theorem verdictOf_score (rubric : Rubric) (reply : String) (honest : ParsesHonestly S rubric reply) (s : Int) :
    (verdictOf S rubric reply).score = some s ↔ Scores S rubric reply s := by
  constructor
  · intro scored
    rcases honest with ⟨s', reasoning, ok, scores⟩ | ⟨message, refused⟩
    · rw [verdictOf, ok] at scored
      obtain rfl : s' = s := Option.some.inj scored
      exact scores
    · rw [verdictOf, refused] at scored
      cases scored
  · intro scores
    rcases scores_parsed S rubric reply s scores with ⟨reasoning, ok⟩
    rw [verdictOf, ok]

theorem verdictOf_fail_iff (rubric : Rubric) (reply : String) (honest : ParsesHonestly S rubric reply) :
    (verdictOf S rubric reply).status = .fail ↔ ∃ s, Scores S rubric reply s ∧ s < rubric.passingScore := by
  rcases parsed : parseJudgeReply S reply rubric with failure | ⟨s, reasoning⟩
  · have status : (verdictOf S rubric reply).status = .error := by rw [verdictOf, parsed]
    have none_ : (verdictOf S rubric reply).score = none := by rw [verdictOf, parsed]
    rw [status]
    refine iff_of_false (by simp) ?_
    rintro ⟨s, scores, -⟩
    rw [← verdictOf_score S rubric reply honest, none_] at scores
    cases scores
  · have status : (verdictOf S rubric reply).status = if rubric.passed s then .pass else .fail := by
      rw [verdictOf, parsed]
    have score : (verdictOf S rubric reply).score = some s := by rw [verdictOf, parsed]
    have unique (t : Int) : Scores S rubric reply t ↔ s = t := by
      rw [← verdictOf_score S rubric reply honest, score, Option.some.injEq]
    rw [status]
    simp [unique, Rubric.passed]

theorem aggregate_pass_iff (verdicts : List Verdict) : (aggregate verdicts).1 = .pass ↔
    (∃ v ∈ verdicts, v.score ≠ none) ∧ ∀ v ∈ verdicts, v.score ≠ none → v.status ≠ .fail := by
  have some_scored : (verdicts.filter fun v => v.score.isSome).isEmpty = false ↔ ∃ v ∈ verdicts, v.score ≠ none := by
    simp [Option.isSome_iff_ne_none]
  have none_failed : (((verdicts.filter fun v => v.score.isSome).filter fun v => v.status == .fail).map
      Verdict.rubric).isEmpty = true ↔ ∀ v ∈ verdicts, v.score ≠ none → v.status ≠ .fail := by
    simp only [List.isEmpty_iff, List.map_eq_nil_iff, List.filter_filter, List.filter_eq_nil_iff,
      Bool.and_eq_true, beq_iff_eq, Option.isSome_iff_ne_none, not_and]
    exact forall₂_congr fun v _ => forall_comm
  rw [← some_scored, ← none_failed, aggregate]
  dsimp only
  generalize (List.filter _ _).isEmpty = empty
  generalize (List.map _ _).isEmpty = unfailed
  cases empty <;> cases unfailed <;> simp

/-- Nothing decides the example before the judge is called. -/
def reachesJudge (outputs : Value) : Bool :=
  !indeterminate outputs && !(outputs.get "error_kind").pyEq (str "blocked_money_domain") &&
  !harnessErrorOutcomes.contains (((outputs.get "outcome").orElse (str "")).text S.unicode) &&
  !(strip (responseText outputs)).isEmpty &&
  ((embeddedEnvelope S (responseText outputs)).filter reportsFailure).isNone

theorem scoreExample_judged (judge : Judge) (rubrics : List Rubric) (inputs outputs : Value) (exampleId : String)
    (reaches : reachesJudge S outputs = true) :
    (scoreExample S judge rubrics inputs outputs exampleId).calls = (judgeAll S judge rubrics 0).1 ∧
      ((scoreExample S judge rubrics inputs outputs exampleId).result.map ExampleScore.status) =
        (judgeAll S judge rubrics 0).2.map fun verdicts => (aggregate verdicts).1 := by
  simp only [reachesJudge, Bool.and_eq_true, Bool.not_eq_true'] at reaches
  rcases reaches with ⟨⟨⟨⟨determinate, allowed⟩, harness⟩, filled⟩, no_failure⟩
  rw [scoreExample]
  dsimp only
  rw [determinate, allowed, harness, filled, Option.isNone_iff_eq_none.mp no_failure]
  simp only [Bool.false_eq_true, if_false, true_and]
  cases (judgeAll S judge rubrics 0).2 <;> rfl

theorem scoreExample_unjudged (judge : Judge) (rubrics : List Rubric) (inputs outputs : Value) (exampleId : String)
    (decided : reachesJudge S outputs = false) :
    (scoreExample S judge rubrics inputs outputs exampleId).calls = 0 ∧
      ∃ score, (scoreExample S judge rubrics inputs outputs exampleId).result = .ok score ∧ score.status ≠ .pass := by
  rw [scoreExample]
  dsimp only
  split
  · exact ⟨rfl, _, rfl, by simp⟩
  split
  · exact ⟨rfl, _, rfl, by simp⟩
  split
  · exact ⟨rfl, _, rfl, by simp⟩
  split
  · exact ⟨rfl, _, rfl, by simp⟩
  split
  · exact ⟨rfl, _, rfl, by simp⟩
  · rename_i determinate allowed harness filled _ no_failure
    rw [Bool.not_eq_true] at determinate allowed harness filled
    rw [reachesJudge, determinate, allowed, harness, filled, no_failure] at decided
    exact absurd decided (by simp)

variable (replies : Nat → String) (rubrics : List Rubric)

/-- Some replies state scores, all of which pass, and some reply states none. -/
def PassesWithError : Prop :=
  (∃ entry ∈ rubrics.zipIdx, ∃ s, Scores S entry.1 (replies entry.2) s) ∧
    (∀ entry ∈ rubrics.zipIdx, ∀ s, Scores S entry.1 (replies entry.2) s → entry.1.passingScore ≤ s) ∧
    ∃ entry ∈ rubrics.zipIdx, ∀ s, ¬Scores S entry.1 (replies entry.2) s

/-- Every reply is parsed honestly, none makes the scorer raise, and an example that passes has a score at or
above the pass mark from every reply. -/
structure NoFabrication (inputs outputs : Value) (exampleId : String) : Prop where
  parses : ∀ entry ∈ rubrics.zipIdx, ParsesHonestly S entry.1 (replies entry.2)
  returns : ∃ score, (scoreExample S (fun i => .ok (replies i)) rubrics inputs outputs exampleId).result = .ok score
  passes : ∀ score, (scoreExample S (fun i => .ok (replies i)) rubrics inputs outputs exampleId).result = .ok score →
    score.status = .pass → ∀ entry ∈ rubrics.zipIdx, ∃ s, Scores S entry.1 (replies entry.2) s ∧
      entry.1.passingScore ≤ s

/-- An example of which every reply is parsed honestly passes when a score is stated and none fails. -/
theorem status_pass_iff (inputs outputs : Value) (exampleId : String) (reaches : reachesJudge S outputs = true)
    (honest : ∀ entry ∈ rubrics.zipIdx, ParsesHonestly S entry.1 (replies entry.2)) :
    ∃ score, (scoreExample S (fun i => .ok (replies i)) rubrics inputs outputs exampleId).result = .ok score ∧
      (score.status = .pass ↔ (∃ entry ∈ rubrics.zipIdx, ∃ s, Scores S entry.1 (replies entry.2) s) ∧
        ∀ entry ∈ rubrics.zipIdx, ∀ s, Scores S entry.1 (replies entry.2) s → entry.1.passingScore ≤ s) := by
  rcases scoreExample_judged S (fun i => .ok (replies i)) rubrics inputs outputs exampleId reaches with ⟨-, status⟩
  rw [judgeAll_honest S replies rubrics 0 honest] at status
  rcases result : (scoreExample S (fun i => .ok (replies i)) rubrics inputs outputs exampleId).result with
    failure | score
  · rw [result] at status
    cases status
  rw [result] at status
  refine ⟨score, rfl, ?_⟩
  rw [Except.ok.inj status, aggregate_pass_iff, List.forall_mem_map]
  simp only [List.mem_map, exists_exists_and_eq_and]
  refine and_congr (exists_congr fun entry => and_congr_right fun member => ?_) (forall₂_congr fun entry member => ?_)
  · rw [← Option.isSome_iff_ne_none, Option.isSome_iff_exists]
    exact exists_congr (verdictOf_score S _ _ (honest entry member))
  · rw [← Option.isSome_iff_ne_none, Option.isSome_iff_exists, Ne,
      verdictOf_fail_iff S _ _ (honest entry member)]
    simp only [verdictOf_score S _ _ (honest entry member)]
    constructor
    · intro kept s scores
      exact not_lt.mp fun below => kept ⟨s, scores⟩ ⟨s, scores, below⟩
    · rintro kept - ⟨s, scores, below⟩
      exact not_lt.mpr (kept s scores) below

/-- No score is fabricated exactly when every score with a point is finite and whole or off the scale, and no
reply without a score is passed by. -/
theorem noFabrication_iff (inputs outputs : Value) (exampleId : String) :
    NoFabrication S replies rubrics inputs outputs exampleId ↔
      (∀ entry ∈ rubrics.zipIdx, Truthful S entry.1 (replies entry.2)) ∧
        (reachesJudge S outputs = true → ¬PassesWithError S replies rubrics) := by
  have parses_iff : (∀ entry ∈ rubrics.zipIdx, ParsesHonestly S entry.1 (replies entry.2)) ↔
      ∀ entry ∈ rubrics.zipIdx, Truthful S entry.1 (replies entry.2) :=
    forall₂_congr fun entry _ => parsesHonestly_iff S entry.1 (replies entry.2)
  rw [← parses_iff]
  constructor
  · intro kept
    refine ⟨kept.parses, fun reaches => ?_⟩
    rintro ⟨stated, passing, entry, member, unstated⟩
    rcases status_pass_iff S replies rubrics inputs outputs exampleId reaches kept.parses with ⟨score, result, pass_iff⟩
    rcases kept.passes score result (pass_iff.mpr ⟨stated, passing⟩) entry member with ⟨s, scores, -⟩
    exact unstated s scores
  · rintro ⟨honest, complete⟩
    by_cases reaches : reachesJudge S outputs = true
    · rcases status_pass_iff S replies rubrics inputs outputs exampleId reaches honest with ⟨score, result, pass_iff⟩
      refine ⟨honest, ⟨score, result⟩, fun other same passed entry member => ?_⟩
      obtain rfl : score = other := Except.ok.inj (result.symm.trans same)
      rcases pass_iff.mp passed with ⟨stated, passing⟩
      by_contra missing
      refine complete reaches ⟨stated, passing, entry, member, fun s scores => missing ?_⟩
      exact ⟨s, scores, passing entry member s scores⟩
    · rcases scoreExample_unjudged S (fun i => .ok (replies i)) rubrics inputs outputs exampleId
        (by simpa using reaches) with ⟨-, score, result, not_pass⟩
      refine ⟨honest, ⟨score, result⟩, fun other same passed => ?_⟩
      obtain rfl : score = other := Except.ok.inj (result.symm.trans same)
      exact absurd passed not_pass

end

/-- `json.loads` of the replies below. -/
def plainScoring : Scoring where
  unicode := { lower := fun s => s, printable := fun _ => true }
  loads text := if text = "\x7b\"score\": 3\x7d" then some (dict [("score", int 3)]) else none

def answeredOutputs : Value := dict [("outcome", str "success"), ("response", str "An answer.")]

def fullMarks : String := "\x7b\"score\": 3\x7d"

theorem fullMarks_object : replyObject plainScoring fullMarks = dict [("score", int 3)] := by rfl

theorem fullMarks_scores (rubric : Rubric) (s : Int) :
    Scores plainScoring rubric fullMarks s ↔ s = 3 ∧ 3 ∈ rubric.levels := by
  have filled : (strip fullMarks).isEmpty = false := by decide
  have states_iff : StatesScore (replyObject plainScoring fullMarks) s ↔ s = 3 := by
    rw [fullMarks_object]
    constructor
    · rintro (stated | ⟨x, stated, -⟩)
      · exact (Value.int.inj (Option.some.inj stated)).symm
      · cases stated
    · rintro rfl
      exact .inl rfl
  rw [Scores, and_iff_right filled, states_iff]
  constructor
  · rintro ⟨rfl, listed⟩
    exact ⟨rfl, listed⟩
  · rintro ⟨rfl, listed⟩
    exact ⟨rfl, listed⟩

theorem fullMarks_truthful (rubric : Rubric) : Truthful plainScoring rubric fullMarks := by
  intro filled x found
  rw [fullMarks_object] at found
  exact absurd (Option.some.inj found) (by simp)

theorem prose_object : replyObject plainScoring "looks good to me" = null := by rfl

theorem prose_states_none (rubric : Rubric) (s : Int) : ¬Scores plainScoring rubric "looks good to me" s := by
  rintro ⟨-, states, -⟩
  rw [prose_object] at states
  rcases states with stated | ⟨x, stated, -⟩ <;> cases stated

theorem fullMarks_not_fabricated :
    (∀ entry ∈ [refusalCorrectness].zipIdx, Truthful plainScoring entry.1 fullMarks) ∧
        (reachesJudge plainScoring answeredOutputs = true →
          ¬PassesWithError plainScoring (fun _ => fullMarks) [refusalCorrectness]) ∧
      NoFabrication plainScoring (fun _ => fullMarks) [refusalCorrectness] (dict []) answeredOutputs "" := by
  have truthful : ∀ entry ∈ [refusalCorrectness].zipIdx, Truthful plainScoring entry.1 fullMarks :=
    fun entry _ => fullMarks_truthful entry.1
  have complete : ¬PassesWithError plainScoring (fun _ => fullMarks) [refusalCorrectness] := by
    rintro ⟨-, -, entry, member, unstated⟩
    obtain rfl : entry = (refusalCorrectness, 0) := by simpa using member
    exact unstated 3 ((fullMarks_scores _ _).mpr (by decide))
  exact ⟨truthful, fun _ => complete, (noFabrication_iff _ _ _ _ _ _).mpr ⟨truthful, fun _ => complete⟩⟩

/-- One reply passes, the other is no JSON, and the example passes. -/
theorem prose_passes : ¬NoFabrication plainScoring (fun i => if i = 0 then fullMarks else "looks good to me")
    [refusalCorrectness, outputWellformedness] (dict []) answeredOutputs "" := by
  intro kept
  have reaches : reachesJudge plainScoring answeredOutputs = true := by decide
  refine ((noFabrication_iff _ _ _ _ _ _).mp kept).2 reaches ⟨?_, ?_, ?_⟩
  · exact ⟨(refusalCorrectness, 0), by simp, 3, (fullMarks_scores _ _).mpr (by decide)⟩
  · intro entry member s scores
    rcases List.mem_cons.mp member with rfl | member
    · obtain ⟨rfl, -⟩ := (fullMarks_scores _ s).mp scores
      decide
    · obtain rfl : entry = (outputWellformedness, 1) := by simpa using member
      exact absurd scores (prose_states_none _ s)
  · exact ⟨(outputWellformedness, 1), by simp, prose_states_none _⟩

end GenesisAgents.Rubrics
