import GenesisAgents.Verifier

/-! Which criteria a passed verification meets. The tracks are not added up: a hash decides alone,
else a committed rubric, else the expected text. -/

namespace GenesisAgents

open Value Verifier

namespace Verifier

variable (V : Verifier) (W : Surroundings) (spec : VerificationSpec)

def artifactBytes : Except String Bytes :=
  if spec.inlineMode then .ok spec.inlineBytes else W.artifact

def HashHolds : Prop :=
  ∃ bytes, artifactBytes W spec = .ok bytes ∧
    V.lower (V.sha256 bytes) = V.lower (spec.expectedHash.getD "")

def RubricHolds : Prop :=
  ∃ engine bytes report, V.rubricEngine = some engine ∧
    engine.makeRubricHash (spec.rubricJson.getD null) = spec.rubricHash.getD "" ∧
    rubricBytes W spec = .ok bytes ∧
    engine.evaluateRubric (V.decode bytes) (spec.rubricJson.getD null) = .ok report ∧
    report.rubricPass = true

def ContentHolds (result : VerificationResult) : Prop :=
  ∃ extracted, result.extractedContent = some extracted ∧
    isSubstring (V.lower (spec.expectedContent.getD "")) (V.lower extracted) = true

/-- Every criterion the specification names. -/
structure AllCriteria (result : VerificationResult) : Prop where
  hash : isSet spec.expectedHash = true → HashHolds V W spec
  rubric : spec.rubricGiven = true → RubricHolds V W spec
  content : isSet spec.expectedContent = true → ContentHolds V spec result

/-- The criterion that decides. -/
def DecidingCriterion (result : VerificationResult) : Prop :=
  if isSet spec.expectedHash then HashHolds V W spec
  else if spec.rubricGiven && isSet spec.rubricHash then RubricHolds V W spec
  else isSet spec.expectedContent = true → ContentHolds V spec result

end Verifier

theorem runVerification_concludes (V : Verifier) (W : Surroundings) (sessionId : String)
    (spec : VerificationSpec) (context : VerificationContext) (result : VerificationResult)
    (ran : V.runVerification W sessionId spec context = .ok result) :
    ∃ σ, result = V.conclude sessionId spec context (V.track1 W spec) (V.track2 W spec) σ := by
  unfold runVerification at ran
  split at ran
  · contradiction
  · dsimp only at ran
    split at ran
    · exact ⟨_, (Except.ok.inj ran).symm⟩
    · split at ran
      · contradiction
      · split at ran
        · contradiction
        · exact ⟨_, (Except.ok.inj ran).symm⟩

theorem track1_decides (V : Verifier) (W : Surroundings) (spec : VerificationSpec) :
    (V.track1 W spec).passed.isSome = isSet spec.expectedHash := by
  unfold track1
  split
  · rename_i given
    rw [given]
    split
    · rfl
    · dsimp only
      split <;> rfl
  · rename_i absent
    rw [Bool.not_eq_true] at absent
    rw [absent]
    rfl

theorem compareHash_passed (V : Verifier) (actual expected : String)
    (passed : (V.compareHash actual expected).passed = some true) :
    V.lower actual = V.lower expected := by
  simpa [compareHash] using passed

/-- A fetch whose error has no text is taken for one that found the empty hash. -/
theorem track1_sound (V : Verifier) (W : Surroundings) (spec : VerificationSpec)
    (lowerKeeps : ∀ s, V.lower "" = V.lower s → s = "")
    (passed : (V.track1 W spec).passed = some true) : HashHolds V W spec := by
  unfold track1 at passed
  split at passed
  · rename_i given
    split at passed
    · rename_i inlined
      exact ⟨spec.inlineBytes, by rw [artifactBytes, if_pos inlined], compareHash_passed V _ _ passed⟩
    · rename_i fetched
      dsimp only at passed
      split at passed
      · simp at passed
      · rename_i answered
        have equal := compareHash_passed V _ _ passed
        rcases found : W.artifact with raised | bytes
        · rw [found] at equal
          have empty := lowerKeeps _ equal
          simp [isSet, empty] at given
        · rw [found] at equal
          exact ⟨bytes, by rw [artifactBytes, if_neg fetched, found], equal⟩
  · simp at passed

theorem track2_decides (V : Verifier) (W : Surroundings) (spec : VerificationSpec) :
    (V.track2 W spec).passed.isSome = (spec.rubricGiven && isSet spec.rubricHash) := by
  unfold track2
  split
  · rename_i given
    rw [given]
    split
    · rfl
    · dsimp only
      split
      · rfl
      · split
        · rfl
        · split <;> rfl
  · rename_i absent
    rw [Bool.not_eq_true] at absent
    rw [absent]
    rfl

theorem track2_sound (V : Verifier) (W : Surroundings) (spec : VerificationSpec)
    (passed : (V.track2 W spec).passed = some true) : RubricHolds V W spec := by
  unfold track2 at passed
  split at passed
  · split at passed
    · simp [Track2.failed] at passed
    · rename_i engine present
      dsimp only at passed
      split at passed
      · simp [Track2.failed] at passed
      · rename_i committed
        split at passed
        · simp [Track2.failed] at passed
        · rename_i bytes read
          split at passed
          · simp [Track2.failed] at passed
          · rename_i report evaluated
            exact ⟨engine, bytes, report, present, by simpa using committed, read, evaluated,
              Option.some.inj passed⟩
  · simp at passed

theorem evaluateResult_sound (V : Verifier) (σ : SessionState) (spec : VerificationSpec)
    (passed : (V.evaluateResult σ spec).1 = true) (given : isSet spec.expectedContent = true) :
    ∃ extracted, σ.extractedContent = some extracted ∧
      isSubstring (V.lower (spec.expectedContent.getD "")) (V.lower extracted) = true := by
  rw [evaluateResult] at passed
  dsimp only at passed
  split at passed
  · contradiction
  · split at passed
    · contradiction
    · split at passed
      · contradiction
      · rename_i extracted found
        split at passed
        · rename_i contained
          exact ⟨extracted, found, contained⟩
        · contradiction

/-- A verification that passes meets the criterion that decides it. -/
theorem passed_meets_deciding (V : Verifier) (W : Surroundings) (sessionId : String)
    (spec : VerificationSpec) (context : VerificationContext) (result : VerificationResult)
    (lowerKeeps : ∀ s, V.lower "" = V.lower s → s = "")
    (ran : V.runVerification W sessionId spec context = .ok result)
    (passed : result.passed = true) : DecidingCriterion V W spec result := by
  obtain ⟨σ, rfl⟩ := runVerification_concludes V W sessionId spec context result ran
  change (V.finalVerdict (v2Verdict (V.track1 W spec) (V.track2 W spec)) σ spec).1 = true at passed
  have first := track1_decides V W spec
  have second := track2_decides V W spec
  rw [DecidingCriterion]
  rcases hash : isSet spec.expectedHash with _ | _
  · rw [hash] at first
    rw [if_neg (by simp)]
    rcases rubric : spec.rubricGiven && isSet spec.rubricHash with _ | _
    · rw [rubric] at second
      rw [if_neg (by simp)]
      intro given
      simp only [v2Verdict, first, second, finalVerdict, Bool.false_eq_true, if_false] at passed
      obtain ⟨extracted, found, contained⟩ := evaluateResult_sound V σ spec passed given
      exact ⟨extracted, found, contained⟩
    · rw [rubric] at second
      rw [if_pos rfl]
      obtain ⟨verdict, decided⟩ := Option.isSome_iff_exists.mp second
      simp only [v2Verdict, first, decided, finalVerdict, Option.isSome_some, Bool.false_eq_true,
        if_false, if_true] at passed
      exact track2_sound V W spec (by rw [decided, passed])
  · rw [hash] at first
    rw [if_pos rfl]
    obtain ⟨verdict, decided⟩ := Option.isSome_iff_exists.mp first
    simp only [v2Verdict, decided, finalVerdict, Option.isSome_some, if_true] at passed
    exact track1_sound V W spec lowerKeeps (by rw [decided, passed])

def helloSha : String := "2cf24dba5fb0a30e26e83b2ac5b9e29e1b161e5c1fa7425e73043362938b9824"

def helloVerifier : Verifier where
  sha256 _ := helloSha
  decode _ := "hello"
  lower := id
  rubricEngine := none
  extractMaxChars := 5000
  certify _ := ⟨"", "", ""⟩

def offline : Surroundings where
  artifact := .error "offline"
  rubricText := .error "offline"
  browser :=
    { importError := none, launchError := some "offline", navigateError := none
      screenshot := .error "offline", extract := .missing, content := .error "offline"
      accessibility := none, closeError := none }

def helloSpec : VerificationSpec where
  url := none
  selector := none
  expectedContent := some "goodbye"
  fingerprintDelta := false
  expectedHash := some helloSha
  rubricJson := none
  rubricHash := none
  requestId := none
  inlineContent := some "hello"
  sourced := by decide

def helloContext : VerificationContext :=
  ⟨"SwarmSync.AI", "escrow_verification", "escrow-1", none, none, "verification-1", none⟩

def helloResult : VerificationResult :=
  helloVerifier.conclude "job-1" helloSpec helloContext (helloVerifier.track1 offline helloSpec)
    (helloVerifier.track2 offline helloSpec) (helloVerifier.inlineSession helloSpec)

theorem wrong_text_passes :
    ¬∀ (V : Verifier) (W : Surroundings) (sessionId : String) (spec : VerificationSpec)
      (context : VerificationContext) (result : VerificationResult),
      V.runVerification W sessionId spec context = .ok result → result.passed = true →
      AllCriteria V W spec result := by
  intro sound
  have all := sound helloVerifier offline "job-1" helloSpec helloContext helloResult rfl rfl
  obtain ⟨extracted, found, contained⟩ := all.content rfl
  obtain rfl : "hello" = extracted := Option.some.inj found
  exact absurd contained (by decide)

def strictEngine : RubricEngine where
  makeRubricHash _ := helloSha
  evaluateRubric _ _ := .ok ⟨false, [("says goodbye", false)], null⟩

def strictVerifier : Verifier := { helloVerifier with rubricEngine := some strictEngine }

def uncommittedSpec : VerificationSpec :=
  { helloSpec with
    expectedContent := some "hello", expectedHash := none
    rubricJson := some (dict [("predicates", list [str "says goodbye"])]) }

/-- A rubric whose hash was not committed is not evaluated. -/
theorem uncommitted_rubric_passes :
    ∃ result, strictVerifier.runVerification offline "job-1" uncommittedSpec helloContext = .ok result ∧
      result.passed = true ∧ ¬AllCriteria strictVerifier offline uncommittedSpec result := by
  refine ⟨_, rfl, rfl, ?_⟩
  intro all
  rcases all.rubric rfl with ⟨engine, bytes, report, there, -, -, evaluated, passes⟩
  obtain rfl : strictEngine = engine := Option.some.inj there
  rw [← Except.ok.inj evaluated] at passes
  cases passes

theorem right_hash_holds : DecidingCriterion helloVerifier offline helloSpec helloResult :=
  passed_meets_deciding helloVerifier offline "job-1" helloSpec helloContext helloResult
    (fun _ same => same.symm) rfl rfl

end GenesisAgents
