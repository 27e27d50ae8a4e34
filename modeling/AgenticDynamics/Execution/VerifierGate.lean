import AgenticDynamics.Library.Lines
import AgenticDynamics.Execution.PhaseContainment

/-!
# The verification gate

A verification is dispatched to a verifier, refused, or run in process. Whatever comes of it is put
on the record of the phase, the rules that follow are the same, and whether the phase is corrected
is read off the text of its error.
-/

namespace AgenticDynamics.Execution

open Python

/-! ### What comes of a verification -/

/-- The fields of a dispatched verdict that the gate reads, of whatever shape they are. -/
structure Verdict where
  ok : Json := .bool false
  error : Json := .str ""
  testsPassed : Json := .int 0
  testsTotal : Json := .int 0
  testExecutedSuccess : Json := .null

/-- A result of `run_suite`. -/
structure SuiteResult where
  passed : ℕ
  failed : ℕ
  errors : ℕ
  total : ℕ
  tail : String

def suiteSucceeded (suite : SuiteResult) : Bool :=
  0 < suite.total ∧ suite.failed = 0 ∧ suite.errors = 0

inductive VerifierOutcome
  | dispatched (verdict : Verdict)
  /-- The verifier raises. -/
  | raised (repr : String)
  /-- A containerized run has no verifier. -/
  | refused
  | ran (suite : SuiteResult)
  /-- `run_suite` raises. -/
  | suiteRaised (repr : String)

section Gate

variable (rt : Runtime)

/-- `int(x or 0)`. -/
def countOf (x : Json) : Except Raised ℤ :=
  match (if x.truthy then x else .int 0).toInt rt with
  | .ok n    => .ok n
  | .error e => .error (.exception e)

/-- The counts of a verdict: the tests that passed, and all. -/
def Verdict.counts (v : Verdict) : Except Raised (ℤ × ℤ) :=
  (countOf rt v.testsPassed).bind fun passed =>
    (countOf rt v.testsTotal).map fun total => (passed, total)

/-- The error of a verdict that is not ok. -/
def Verdict.failure (v : Verdict) (counts : ℤ × ℤ) : String :=
  let error := (if v.error.truthy then v.error else .str "").text rt
  let capped := String.ofList (error.toList.take 800)
  if capped = "" then
    "verifier suite failed (" ++ toString counts.1 ++ "/" ++ toString counts.2 ++ " passed)"
  else capped

/-- `_apply_verifier_verdict`; a value of `test_executed_success` counts by its truth. -/
def applyVerifierVerdict (v : Verdict) : Except Raised SuiteRun :=
  (v.counts rt).map fun counts =>
    { failure := if v.ok.truthy then none else some (v.failure rt counts)
      testsTotal := counts.2
      testExecutedSuccess := match v.testExecutedSuccess with
        | .null => none
        | value => some value.truthy }

def lastChars (n : ℕ) (text : String) : String :=
  String.ofList (text.toList.drop (text.toList.length - n))

/-- What a suite that runs in process leaves. -/
def SuiteResult.run (suite : SuiteResult) : SuiteRun where
  failure := if 0 < suite.failed ∨ 0 < suite.errors then some (lastChars 400 suite.tail) else none
  testsTotal := suite.total
  testExecutedSuccess := some (suiteSucceeded suite)

def verifierRefusedError (phaseName : String) : String :=
  "VERIFIER_REFUSED" ++ (": kind:test phase '" ++ phaseName ++ "' cannot execute in the " ++
    "containerized path without an injected verifier executor — refusing (P0-1 " ++
    "fail-closed, never a skip). Inject a DockerVerifierExecutor under --orchestrator, " ++
    "or run the phase in-process (no step executor injected).")

/-- What `_run_test_gate` has on the record before its shared rules. -/
def VerifierOutcome.suiteRun (phaseName : String) : VerifierOutcome → Except Raised SuiteRun
  | dispatched verdict => applyVerifierVerdict rt verdict
  | raised repr        => .ok ⟨some ("VERIFIER_ERROR: " ++ repr), 0, none⟩
  | refused            => .ok ⟨some (verifierRefusedError phaseName), 0, none⟩
  | ran suite          => .ok suite.run
  | suiteRaised repr   => .error (.exception repr)

/-- The record that a verification leaves for the decision over a correction: an exception fails a
test phase in its handler, which reads the rows an agent phase has bound, and leaves the runner from
the gate of an agent phase. -/
def verifiedRecord (kind : String) (rows : Option (List AttemptRow)) (pr : PhaseResult)
    (o : VerifierOutcome) (targets : List String) (emptyRefuses : Bool) : Option PhaseResult :=
  match o.suiteRun rt pr.phase with
  | .ok suite => some (runTestGate rt.repr pr suite targets emptyRefuses)
  | .error e  =>
    if kind = "test" then (⟨pr, ⟨rows, none⟩, some e, []⟩ : Trial).handled else none

end Gate

/-! ### What is asked of a verification -/

namespace VerifierOutcome

variable (rt : Runtime) (targets : List String) (emptyRefuses : Bool)

/-- A test failed or errored: one that is counted did not pass. -/
def TestFailed : VerifierOutcome → Prop
  | dispatched v => ∃ counts, v.counts rt = .ok counts ∧ counts.1 < counts.2
  | ran suite    => 0 < suite.failed ∨ 0 < suite.errors
  | _            => False

def Ran : VerifierOutcome → Prop
  | dispatched v => ∃ counts, v.counts rt = .ok counts ∧ 0 < counts.2
  | ran suite    => 0 < suite.total
  | _            => False

def Succeeded : VerifierOutcome → Prop
  | dispatched v => v.testExecutedSuccess.truthy = true
  | ran suite    => 0 < suite.total ∧ suite.failed = 0 ∧ suite.errors = 0
  | _            => False

/-- No suite has run: the verifier or the suite has raised or was refused, the counts of the verdict
are no numbers, or it is not ok and has neither a count nor a verdict. -/
def Unavailable : VerifierOutcome → Prop
  | dispatched v => match v.counts rt with
    | .error _   => True
    | .ok counts => v.ok.truthy = false ∧ v.testExecutedSuccess = .null ∧ counts.2 = 0
  | ran _        => False
  | _            => True

/-- The verifier itself says that the phase is not ok. -/
def Rejected : VerifierOutcome → Prop
  | dispatched v => v.ok.truthy = false
  | _            => False

/-- What a phase that is left ok answers for. -/
structure Good (o : VerifierOutcome) : Prop where
  passed : ¬ o.TestFailed rt
  required : emptyRefuses = true → o.Ran rt
  declared : targets ≠ [] → o.Succeeded

/-- A suite ran and failed, or the required suite was empty. -/
def Defective (o : VerifierOutcome) : Prop :=
  ¬ o.Unavailable rt ∧ (o.Rejected ∨ ¬ o.Good rt targets emptyRefuses)

/-- A phase is left ok only for a good outcome, and its failure counts as one of its verification
exactly for a defective one. -/
def Judged (kind : String) (rows : Option (List AttemptRow)) (pr : PhaseResult)
    (o : VerifierOutcome) : Prop :=
  ((∃ pr', verifiedRecord rt kind rows pr o targets emptyRefuses = some pr' ∧ pr'.status = .ok) →
    o.Good rt targets emptyRefuses) ∧
  ((∃ pr', verifiedRecord rt kind rows pr o targets emptyRefuses = some pr' ∧
      verificationFailure pr' kind = true) ↔ o.Defective rt targets emptyRefuses)

end VerifierOutcome

/-! ### The texts that decide -/

/-- The text begins like an infrastructure refusal. -/
def marked (error : String) : Bool :=
  ["VERIFIER_REFUSED", "VERIFIER_ERROR", "ADMISSION_DENIED"].any fun p => startsWith error p

/-- A failure with this error would not be seen as one of a verification. -/
def silences (kind error : String) : Bool :=
  marked error ∨ (kind ≠ "test" ∧ (startsWith error "VERIFIER_" ∨ startsWith error "ADMISSION_"))

/-- An error that the phase had before would not be seen as one of a verification. -/
def mutes (kind error : String) : Bool :=
  error ≠ "" ∧ (marked error ∨ (kind ≠ "test" ∧ ¬ startsWith error "TEST_GATE:"))

namespace VerifierOutcome

/-- Where the rules are kept: an error text that looks like infrastructure comes from
infrastructure, counts say what the verdict says, and an exception is silent. -/
def Plain (rt : Runtime) (kind : String) (rows : Option (List AttemptRow)) (pr : PhaseResult)
    (targets : List String) (emptyRefuses : Bool) : VerifierOutcome → Prop
  | raised _           => True
  | refused            => True
  | suiteRaised repr   => kind = "test" → rows.isSome → marked repr = true
  | ran suite          =>
    if 0 < suite.failed ∨ 0 < suite.errors then silences kind (lastChars 400 suite.tail) = false
    else emptyRefuses = false → targets ≠ [] → suite.total = 0 → mutes kind pr.error = false
  | dispatched v       => match v.counts rt with
    | .error e   => kind = "test" → rows.isSome → marked e.error = true
    | .ok counts =>
      if v.ok.truthy then
        if emptyRefuses = true ∧ counts.2 = 0 then True
        else if targets ≠ [] ∧ v.testExecutedSuccess.truthy = false then
          mutes kind pr.error = false
        else counts.2 ≤ counts.1 ∧ (emptyRefuses = true → 0 ≤ counts.2)
      else silences kind (v.failure rt counts) = true ↔
        v.testExecutedSuccess = .null ∧ counts.2 = 0

end VerifierOutcome

/-! ### Reading the texts -/

variable {rt : Runtime} {repr : Json → String} {kind error : String}
  {rows : Option (List AttemptRow)} {pr : PhaseResult} {targets : List String}
  {emptyRefuses : Bool} {suite : SuiteRun} {o : VerifierOutcome}

lemma startsWith_clash {head tail : String} (hhead : startsWith error head = true)
    (htail : startsWith error tail = true) :
    startsWith tail head = true ∨ startsWith head tail = true := by
  rw [startsWith, List.isPrefixOf_iff_prefix] at *
  rw [startsWith, List.isPrefixOf_iff_prefix]
  exact List.prefix_or_prefix_of_prefix hhead htail

lemma startsWith_trans {head tail : String} (htail : startsWith error tail = true)
    (hhead : startsWith tail head = true) : startsWith error head = true := by
  rw [startsWith, List.isPrefixOf_iff_prefix] at *
  exact hhead.trans htail

lemma marked_iff : marked error = true ↔ startsWith error "VERIFIER_REFUSED" = true ∨
    startsWith error "VERIFIER_ERROR" = true ∨ startsWith error "ADMISSION_DENIED" = true := by
  simp [marked]

lemma not_testGate_of_marked (h : marked error = true) : startsWith error "TEST_GATE:" = false := by
  rw [← Bool.not_eq_true]
  intro hgate
  rcases marked_iff.mp h with h | h | h <;> rcases startsWith_clash h hgate with hclash | hclash <;>
    exact absurd hclash (by decide)

lemma not_testGate_of_verifier (h : startsWith error "VERIFIER_" = true ∨
    startsWith error "ADMISSION_" = true) : startsWith error "TEST_GATE:" = false := by
  rw [← Bool.not_eq_true]
  intro hgate
  rcases h with h | h <;> rcases startsWith_clash h hgate with hclash | hclash <;>
    exact absurd hclash (by decide)

lemma verifier_of_marked (h : marked error = true) :
    startsWith error "VERIFIER_" = true ∨ startsWith error "ADMISSION_" = true := by
  rcases marked_iff.mp h with h | h | h
  · exact Or.inl (startsWith_trans h (by decide))
  · exact Or.inl (startsWith_trans h (by decide))
  · exact Or.inr (startsWith_trans h (by decide))

lemma silences_eq_false (hmark : ¬ ["VERIFIER_", "ADMISSION_", "TEST_GATE:"].any
    (fun p => startsWith error p) = true) : silences kind error = false := by
  simp only [List.any_cons, List.any_nil, Bool.or_false, Bool.or_eq_true, not_or] at hmark
  rw [silences, decide_eq_false_iff_not]
  rintro (hmarked | ⟨-, hverifier⟩)
  · exact (verifier_of_marked hmarked).elim hmark.1 hmark.2.1
  · exact hverifier.elim hmark.1 hmark.2.1

/-! ### What the gate leaves -/

lemma verificationFailure_iff (hfailed : pr.status = .failed) : verificationFailure pr kind = true ↔
    marked pr.error = false ∧ (kind = "test" ∨ startsWith pr.error "TEST_GATE:" = true) := by
  rw [verificationFailure, decide_eq_true_iff, ← Bool.not_eq_true]
  exact ⟨fun h => h.2, fun h => ⟨hfailed, h⟩⟩

lemma verificationFailure_of_testGate (hfailed : pr.status = .failed)
    (hgate : startsWith pr.error "TEST_GATE:" = true) : verificationFailure pr kind = true := by
  refine (verificationFailure_iff hfailed).mpr ⟨?_, Or.inr hgate⟩
  rw [← Bool.not_eq_true]
  intro hmarked
  rw [not_testGate_of_marked hmarked] at hgate
  cases hgate

lemma verificationFailure_of_failure (hfailure : suite.failure = some error) :
    (runTestGate repr pr suite targets emptyRefuses).status = .failed ∧
      verificationFailure (runTestGate repr pr suite targets emptyRefuses) kind =
        !silences kind error := by
  rw [runTestGate, hfailure]
  refine ⟨rfl, ?_⟩
  dsimp only
  split_ifs with hmark hempty
  · rw [Bool.eq_iff_iff, verificationFailure_iff rfl, Bool.not_eq_true', silences,
      decide_eq_false_iff_not, not_or, not_and]
    simp only [List.any_cons, List.any_nil, Bool.or_false, Bool.or_eq_true] at hmark
    constructor
    · rintro ⟨hmarked, hkind⟩
      refine ⟨by rw [hmarked]; decide, fun hagent hverifier => ?_⟩
      have hgate := hkind.resolve_left hagent
      rw [not_testGate_of_verifier hverifier] at hgate
      cases hgate
    · rintro ⟨hmarked, hagent⟩
      refine ⟨Bool.not_eq_true _ ▸ hmarked, ?_⟩
      by_cases hkind : kind = "test"
      · exact Or.inl hkind
      · have hverifier := hagent hkind
        rw [not_or] at hverifier
        rcases hmark with hmark | hmark | hmark
        · exact absurd hmark hverifier.1
        · exact absurd hmark hverifier.2
        · exact Or.inr hmark
  · have hgate : startsWith "TEST_GATE: verification failed" "TEST_GATE:" = true := by decide
    rw [verificationFailure_of_testGate rfl hgate, silences_eq_false hmark]
    rfl
  · have hgate := startsWith_trans (startsWith_append "TEST_GATE: " error)
      (by decide : startsWith "TEST_GATE: " "TEST_GATE:" = true)
    rw [verificationFailure_of_testGate rfl hgate, silences_eq_false hmark]
    rfl

lemma not_verificationFailure_of_ok (hok : pr.status = .ok) :
    verificationFailure pr kind = false := by
  rw [verificationFailure, decide_eq_false_iff_not]
  rintro ⟨hfailed, -⟩
  rw [hok] at hfailed
  cases hfailed

lemma runTestGate_of_empty (hfailure : suite.failure = none)
    (hempty : emptyRefuses = true ∧ suite.testsTotal = 0) :
    (runTestGate repr pr suite targets emptyRefuses).status = .failed ∧
      verificationFailure (runTestGate repr pr suite targets emptyRefuses) kind = true := by
  rw [runTestGate, hfailure]
  dsimp only
  rw [if_pos hempty]
  have hgate : startsWith ("TEST_GATE: required verification ran no tests (total 0 — a required " ++
      "gate needs a nonempty passing suite or an explicit refusal)") "TEST_GATE:" = true :=
    startsWith_trans (startsWith_append _ _) (by decide)
  exact ⟨rfl, verificationFailure_of_testGate rfl hgate⟩

lemma runTestGate_of_declared (hfailure : suite.failure = none)
    (hempty : ¬ (emptyRefuses = true ∧ suite.testsTotal = 0))
    (hdeclared : targets ≠ [] ∧ suite.testExecutedSuccess ≠ some true) :
    (runTestGate repr pr suite targets emptyRefuses).status = .failed ∧
      verificationFailure (runTestGate repr pr suite targets emptyRefuses) kind =
        !mutes kind pr.error := by
  rw [runTestGate, hfailure]
  dsimp only
  rw [if_neg hempty, if_pos hdeclared]
  refine ⟨rfl, ?_⟩
  by_cases herror : pr.error = ""
  · have hmutes : mutes kind pr.error = false := by
      rw [mutes, decide_eq_false_iff_not]
      exact fun h => h.1 herror
    rw [if_pos herror, hmutes]
    refine verificationFailure_of_testGate rfl ?_
    simp only [String.append_assoc]
    exact startsWith_trans (startsWith_append _ _) (by decide)
  · rw [if_neg herror, Bool.eq_iff_iff, verificationFailure_iff rfl, Bool.not_eq_true', mutes,
      decide_eq_false_iff_not, ← Bool.not_eq_true]
    dsimp only
    tauto

lemma runTestGate_of_quiet (hok : pr.status = .ok) (hfailure : suite.failure = none)
    (hempty : ¬ (emptyRefuses = true ∧ suite.testsTotal = 0))
    (hdeclared : ¬ (targets ≠ [] ∧ suite.testExecutedSuccess ≠ some true)) :
    (runTestGate repr pr suite targets emptyRefuses).status = .ok ∧
      verificationFailure (runTestGate repr pr suite targets emptyRefuses) kind = false := by
  rw [runTestGate, hfailure]
  dsimp only
  rw [if_neg hempty, if_neg hdeclared]
  exact ⟨hok, not_verificationFailure_of_ok hok⟩

lemma verifiedRecord_of_suite (hsuite : o.suiteRun rt pr.phase = .ok suite) :
    verifiedRecord rt kind rows pr o targets emptyRefuses =
      some (runTestGate rt.repr pr suite targets emptyRefuses) := by
  rw [verifiedRecord, hsuite]

namespace VerifierOutcome

lemma judged_of_suite (hsuite : o.suiteRun rt pr.phase = .ok suite) :
    o.Judged rt targets emptyRefuses kind rows pr ↔
      ((runTestGate rt.repr pr suite targets emptyRefuses).status = .ok →
        o.Good rt targets emptyRefuses) ∧
      (verificationFailure (runTestGate rt.repr pr suite targets emptyRefuses) kind = true ↔
        o.Defective rt targets emptyRefuses) := by
  simp only [Judged, verifiedRecord_of_suite hsuite, Option.some.injEq, exists_eq_left']

lemma judged_of_failed {b : Bool} (hsuite : o.suiteRun rt pr.phase = .ok suite)
    (h : (runTestGate rt.repr pr suite targets emptyRefuses).status = .failed ∧
      verificationFailure (runTestGate rt.repr pr suite targets emptyRefuses) kind = b) :
    o.Judged rt targets emptyRefuses kind rows pr ↔
      (b = true ↔ o.Defective rt targets emptyRefuses) := by
  rw [judged_of_suite hsuite, h.1, h.2]
  exact and_iff_right nofun

lemma judged_of_left (hsuite : o.suiteRun rt pr.phase = .ok suite)
    (h : (runTestGate rt.repr pr suite targets emptyRefuses).status = .ok ∧
      verificationFailure (runTestGate rt.repr pr suite targets emptyRefuses) kind = false)
    (haccepted : ¬ o.Rejected) :
    o.Judged rt targets emptyRefuses kind rows pr ↔ o.Good rt targets emptyRefuses := by
  rw [judged_of_suite hsuite, h.1, h.2, Defective]
  simp only [Bool.false_eq_true, false_iff, true_imp_iff, not_and, haccepted, false_or, not_not]
  exact ⟨fun hjudged => hjudged.1, fun hgood => ⟨hgood, fun _ => hgood⟩⟩

lemma judged_of_raised {e : Raised} (hsuite : o.suiteRun rt pr.phase = .error e)
    (hunavailable : o.Unavailable rt) :
    o.Judged rt targets emptyRefuses kind rows pr ↔
      (kind = "test" → rows.isSome → marked e.error = true) := by
  have hdefective : ¬ o.Defective rt targets emptyRefuses := fun h => h.1 hunavailable
  simp only [Judged, verifiedRecord, hsuite, hdefective, iff_false, not_exists, not_and]
  by_cases hkind : kind = "test"
  · subst hkind
    simp only [if_true, true_imp_iff]
    cases rows with
    | none      => simp [Trial.handled]
    | some rows =>
      obtain ⟨hfailed, herror⟩ :=
        applyAttemptTotals_status { pr with status := .failed, error := e.error } rows true
      simp only [Trial.handled, Option.map_some, Option.some.injEq, forall_eq', Option.isSome_some,
        true_imp_iff, exists_eq_left', hfailed]
      rw [verificationFailure_iff hfailed, herror]
      simp
  · simp [hkind]

end VerifierOutcome

namespace VerifierOutcome

lemma judged_of_infrastructure (hsuite : o.suiteRun rt pr.phase = .ok suite)
    (hfailure : suite.failure = some error) (hmarked : marked error = true)
    (hunavailable : o.Unavailable rt) : o.Judged rt targets emptyRefuses kind rows pr := by
  have hsilent : silences kind error = true := by
    rw [silences, decide_eq_true_iff]
    exact Or.inl hmarked
  refine (judged_of_failed hsuite (verificationFailure_of_failure hfailure)).mpr ?_
  rw [hsilent]
  exact iff_of_false nofun fun h => h.1 hunavailable

lemma judged_ran_iff (suite : SuiteResult) (hok : pr.status = .ok) :
    (ran suite).Judged rt targets emptyRefuses kind rows pr ↔
      (ran suite).Plain rt kind rows pr targets emptyRefuses := by
  have hsuite : (ran suite).suiteRun rt pr.phase = .ok suite.run := rfl
  have hdefective (h : ¬ (ran suite).Good rt targets emptyRefuses) :
      (ran suite).Defective rt targets emptyRefuses := ⟨not_false, Or.inr h⟩
  rw [Plain]
  by_cases hfail : 0 < suite.failed ∨ 0 < suite.errors
  · have hfailure : suite.run.failure = some (lastChars 400 suite.tail) := by
      rw [SuiteResult.run, if_pos hfail]
    rw [if_pos hfail, judged_of_failed hsuite (verificationFailure_of_failure hfailure),
      iff_true_right (hdefective fun hgood => hgood.passed hfail), Bool.not_eq_true']
  have hfailure : suite.run.failure = none := by
    rw [SuiteResult.run, if_neg hfail]
  have hsucceeded : suite.run.testExecutedSuccess = some true ↔ 0 < suite.total := by
    simp only [SuiteResult.run, suiteSucceeded, Option.some.injEq, decide_eq_true_eq]
    omega
  rw [if_neg hfail]
  by_cases hempty : emptyRefuses = true ∧ suite.run.testsTotal = 0
  · have hzero : suite.total = 0 := Int.natCast_eq_zero.mp hempty.2
    have hbad : ¬ (ran suite).Good rt targets emptyRefuses := fun hgood =>
      absurd (hgood.required hempty.1) (by simp [Ran, hzero])
    rw [judged_of_failed hsuite (runTestGate_of_empty hfailure hempty),
      iff_true_left rfl, iff_true_left (hdefective hbad)]
    intro hrefuses
    rw [hempty.1] at hrefuses
    cases hrefuses
  by_cases hdeclared : targets ≠ [] ∧ suite.run.testExecutedSuccess ≠ some true
  · have hzero : suite.total = 0 := by
      have := mt hsucceeded.mpr hdeclared.2
      omega
    have hrefuses : emptyRefuses = false := by
      rw [← Bool.not_eq_true]
      exact fun h => hempty ⟨h, Int.natCast_eq_zero.mpr hzero⟩
    have hbad : ¬ (ran suite).Good rt targets emptyRefuses := fun hgood =>
      absurd (hgood.declared hdeclared.1).1 (by simp [hzero])
    rw [judged_of_failed hsuite (runTestGate_of_declared hfailure hempty hdeclared),
      iff_true_right (hdefective hbad), Bool.not_eq_true']
    exact ⟨fun h _ _ _ => h, fun h => h hrefuses hdeclared.1 hzero⟩
  · rw [judged_of_left hsuite (runTestGate_of_quiet hok hfailure hempty hdeclared) not_false]
    have hran (hrequired : targets ≠ []) : 0 < suite.total := by
      rw [not_and, not_not] at hdeclared
      exact hsucceeded.mp (hdeclared hrequired)
    refine iff_of_true ⟨hfail, fun hrefuses => ?_, fun hrequired => ?_⟩ ?_
    · have hne : suite.run.testsTotal ≠ 0 := fun h => hempty ⟨hrefuses, h⟩
      exact Nat.pos_of_ne_zero fun h => hne (Int.natCast_eq_zero.mpr h)
    · exact ⟨hran hrequired, by omega, by omega⟩
    · intro _ hrequired hzero
      have := hran hrequired
      omega

lemma recorded_eq_true_iff (value : Json) :
    (match value with
      | .null => none
      | value => some value.truthy : Option Bool) = some true ↔ value.truthy = true := by
  cases value with
  | null => exact iff_of_false nofun nofun
  | _    => exact Option.some_inj

lemma judged_accepted_iff {v : Verdict} {counts : ℤ × ℤ} (hok : pr.status = .ok)
    (hcounts : v.counts rt = .ok counts) (hvok : v.ok.truthy = true)
    (hsuite : (dispatched v).suiteRun rt pr.phase = .ok suite) (hfailure : suite.failure = none)
    (htotal : suite.testsTotal = counts.2)
    (hsuccess : suite.testExecutedSuccess = some true ↔ v.testExecutedSuccess.truthy = true) :
    (dispatched v).Judged rt targets emptyRefuses kind rows pr ↔
      (dispatched v).Plain rt kind rows pr targets emptyRefuses := by
  have hdefective (h : ¬ (dispatched v).Good rt targets emptyRefuses) :
      (dispatched v).Defective rt targets emptyRefuses := by
    refine ⟨?_, Or.inr h⟩
    simp [Unavailable, hcounts, hvok]
  have hran : (dispatched v).Ran rt ↔ 0 < counts.2 := by
    simp only [Ran, hcounts, Except.ok.injEq, exists_eq_left']
  have hfailed : (dispatched v).TestFailed rt ↔ counts.1 < counts.2 := by
    simp only [TestFailed, hcounts, Except.ok.injEq, exists_eq_left']
  simp only [Plain, hcounts, if_pos hvok]
  by_cases hempty : emptyRefuses = true ∧ counts.2 = 0
  · have hbad : ¬ (dispatched v).Good rt targets emptyRefuses := fun hgood =>
      absurd (hran.mp (hgood.required hempty.1)) (by omega)
    rw [if_pos hempty, judged_of_failed hsuite (runTestGate_of_empty hfailure (htotal ▸ hempty))]
    exact iff_of_true (iff_of_true rfl (hdefective hbad)) trivial
  have hempty' : ¬ (emptyRefuses = true ∧ suite.testsTotal = 0) := htotal ▸ hempty
  rw [if_neg hempty]
  by_cases hdeclared : targets ≠ [] ∧ v.testExecutedSuccess.truthy = false
  · have hbad : ¬ (dispatched v).Good rt targets emptyRefuses := by
      intro hgood
      have hsucceeded : v.testExecutedSuccess.truthy = true := hgood.declared hdeclared.1
      rw [hdeclared.2] at hsucceeded
      cases hsucceeded
    have hdeclared' : targets ≠ [] ∧ suite.testExecutedSuccess ≠ some true := by
      refine ⟨hdeclared.1, fun h => ?_⟩
      have := hsuccess.mp h
      rw [hdeclared.2] at this
      cases this
    rw [if_pos hdeclared, judged_of_failed hsuite
      (runTestGate_of_declared hfailure hempty' hdeclared'), iff_true_right (hdefective hbad),
      Bool.not_eq_true']
  · have hsucceeds (hrequired : targets ≠ []) : v.testExecutedSuccess.truthy = true := by
      rw [← Bool.not_eq_false]
      exact fun h => hdeclared ⟨hrequired, h⟩
    have hdeclared' : ¬ (targets ≠ [] ∧ suite.testExecutedSuccess ≠ some true) :=
      fun h => h.2 (hsuccess.mpr (hsucceeds h.1))
    have haccepted : ¬ (dispatched v).Rejected := by
      simp [Rejected, hvok]
    rw [if_neg hdeclared,
      judged_of_left hsuite (runTestGate_of_quiet hok hfailure hempty' hdeclared') haccepted]
    constructor
    · intro hgood
      refine ⟨not_lt.mp (mt hfailed.mpr hgood.passed), fun hrefuses => ?_⟩
      exact (hran.mp (hgood.required hrefuses)).le
    · rintro ⟨hpassed, hrequired⟩
      refine ⟨mt hfailed.mp (not_lt.mpr hpassed), fun hrefuses => hran.mpr ?_, hsucceeds⟩
      exact lt_of_le_of_ne (hrequired hrefuses) fun h => hempty ⟨hrefuses, h.symm⟩

lemma judged_dispatched_iff (v : Verdict) (hok : pr.status = .ok) :
    (dispatched v).Judged rt targets emptyRefuses kind rows pr ↔
      (dispatched v).Plain rt kind rows pr targets emptyRefuses := by
  cases hcounts : v.counts rt with
  | error e   =>
    have hsuite : (dispatched v).suiteRun rt pr.phase = .error e := by
      rw [suiteRun, applyVerifierVerdict, hcounts]
      rfl
    have hunavailable : (dispatched v).Unavailable rt := by
      simp only [Unavailable, hcounts]
    rw [judged_of_raised hsuite hunavailable]
    simp only [Plain, hcounts]
  | ok counts =>
    obtain ⟨passed, total⟩ := counts
    have hsuite : (dispatched v).suiteRun rt pr.phase = .ok {
        failure := if v.ok.truthy then none else some (v.failure rt (passed, total))
        testsTotal := total
        testExecutedSuccess := match v.testExecutedSuccess with
          | .null => none
          | value => some value.truthy } := by
      rw [suiteRun, applyVerifierVerdict, hcounts]
      rfl
    by_cases hvok : v.ok.truthy = true
    · exact judged_accepted_iff hok hcounts hvok hsuite (if_pos hvok) rfl (recorded_eq_true_iff _)
    · have hfalse : v.ok.truthy = false := Bool.not_eq_true _ ▸ hvok
      have hrejected : (dispatched v).Rejected := hfalse
      have hdefective : (dispatched v).Defective rt targets emptyRefuses ↔
          ¬ (v.testExecutedSuccess = .null ∧ total = 0) := by
        simp only [Defective, Unavailable, hcounts, hrejected, true_or, and_true, hfalse, true_and]
      rw [judged_of_failed hsuite (verificationFailure_of_failure (if_neg hvok)), hdefective]
      simp only [Plain, hcounts, if_neg hvok, Bool.not_eq_true', ← Bool.not_eq_true]
      exact not_iff_not

end VerifierOutcome

/-! ### In a container and in process -/

/-- The verdict a verifier container returns for a suite. -/
def SuiteResult.verdict (suite : SuiteResult) : Verdict where
  ok := .bool (suite.failed = 0 ∧ suite.errors = 0)
  error := .str suite.tail
  testsPassed := .int suite.passed
  testsTotal := .int suite.total
  testExecutedSuccess := .bool (suiteSucceeded suite)

lemma countOf_int (n : ℤ) : countOf rt (.int n) = .ok n := by
  rw [countOf]
  by_cases hn : n = 0
  · subst hn
    rfl
  · rw [if_pos (by simpa [Json.truthy] using hn)]
    rfl

lemma runTestGate_status {suite' : SuiteRun}
    (hfailure : suite.failure.isSome = suite'.failure.isSome)
    (htotal : suite.testsTotal = suite'.testsTotal)
    (hsuccess : suite.testExecutedSuccess = suite'.testExecutedSuccess) :
    let found := runTestGate repr pr suite targets emptyRefuses
    let found' := runTestGate repr pr suite' targets emptyRefuses
    found.status = found'.status ∧ found.testsTotal = found'.testsTotal ∧
      found.testExecutedSuccess = found'.testExecutedSuccess := by
  simp only [runTestGate, ← htotal, ← hsuccess]
  cases h : suite.failure with
  | some error =>
    rw [h] at hfailure
    obtain ⟨error', h'⟩ := Option.isSome_iff_exists.mp hfailure.symm
    rw [h']
    exact ⟨rfl, rfl, rfl⟩
  | none       =>
    rw [h] at hfailure
    rw [Option.isSome_eq_false_iff.mp hfailure.symm |> Option.isNone_iff_eq_none.mp]
    exact ⟨rfl, rfl, rfl⟩

lemma verifiedRecord_verdict (suite : SuiteResult) :
    ∃ found found', verifiedRecord rt kind rows pr (.dispatched suite.verdict) targets
        emptyRefuses = some found ∧
      verifiedRecord rt kind rows pr (.ran suite) targets emptyRefuses = some found' ∧
      found.status = found'.status ∧ found.testsTotal = found'.testsTotal ∧
      found.testExecutedSuccess = found'.testExecutedSuccess := by
  have hcounts : suite.verdict.counts rt = .ok (↑suite.passed, ↑suite.total) := by
    rw [Verdict.counts, SuiteResult.verdict, countOf_int, countOf_int]
    rfl
  have hverdict : (VerifierOutcome.dispatched suite.verdict).suiteRun rt pr.phase = .ok {
      failure := if suite.verdict.ok.truthy then none else
        some (suite.verdict.failure rt (↑suite.passed, ↑suite.total))
      testsTotal := suite.total
      testExecutedSuccess := some (suiteSucceeded suite) } := by
    rw [VerifierOutcome.suiteRun, applyVerifierVerdict, hcounts]
    rfl
  have hran : (VerifierOutcome.ran suite).suiteRun rt pr.phase = .ok suite.run := rfl
  refine ⟨_, _, verifiedRecord_of_suite hverdict, verifiedRecord_of_suite hran,
    runTestGate_status ?_ rfl rfl⟩
  by_cases hfail : 0 < suite.failed ∨ 0 < suite.errors
  · have hnot : ¬ suite.verdict.ok.truthy = true := by
      simp only [SuiteResult.verdict, Json.truthy, decide_eq_true_eq]
      omega
    simp only [SuiteResult.run, if_neg hnot, if_pos hfail, Option.isSome_some]
  · have hok : suite.verdict.ok.truthy = true := by
      simp only [SuiteResult.verdict, Json.truthy, decide_eq_true_eq]
      omega
    rw [SuiteResult.run, if_pos hok, if_neg hfail]

/-! ### The corrections of a run -/

def Event.fails (name : String) : Event → Bool
  | .executed phase .failed => phase = name
  | _                       => false

def Event.invalidates : Event → Bool
  | .invalidated _ => true
  | _              => false

/-- How often a phase was corrected: it failed, and what followed invalidates phases. -/
def correctionsOf (name : String) : List Event → ℕ
  | []              => 0
  | event :: events =>
    (if event.fails name ∧ events.head?.any Event.invalidates then 1 else 0) +
      correctionsOf name events

lemma correctionsOf_append {name : String} {events more : List Event}
    (hmore : more.head?.any Event.invalidates = false) :
    correctionsOf name (events ++ more) = correctionsOf name events + correctionsOf name more := by
  induction events with
  | nil => rw [List.nil_append, correctionsOf, Nat.zero_add]
  | cons event events ih =>
    rw [List.cons_append, correctionsOf, correctionsOf, ih, Nat.add_assoc]
    congr 1
    cases events with
    | cons next events => rfl
    | nil              =>
      rw [List.nil_append, hmore]
      rfl

lemma correctionsOf_invoked (name : String) (calls : List Call) :
    correctionsOf name (calls.map Event.invoked) = 0 := by
  induction calls with
  | nil               => rfl
  | cons call calls ih =>
    rw [List.map_cons, correctionsOf, ih]
    simp [Event.fails]

lemma head_invoked (calls : List Call) :
    (calls.map Event.invoked).head?.any Event.invalidates = false := by
  cases calls <;> rfl

lemma correctionsOf_executed {name phase : String} {status : PhaseStatus} {events : List Event}
    (calls : List Call) :
    correctionsOf name (events ++ calls.map Event.invoked ++ [.executed phase status]) =
      correctionsOf name events := by
  have hlast : correctionsOf name [.executed phase status] = 0 := by
    simp [correctionsOf]
  rw [correctionsOf_append rfl, hlast, correctionsOf_append (head_invoked calls),
    correctionsOf_invoked, Nat.add_zero]

lemma correctionsOf_invalidated {name phase : String} {names : List String} {events : List Event}
    (calls : List Call) :
    correctionsOf name
        (events ++ calls.map Event.invoked ++ [.executed phase .failed] ++ [.invalidated names]) =
      correctionsOf name events + if phase = name then 1 else 0 := by
  have hlast : correctionsOf name [.executed phase .failed, .invalidated names] =
      if phase = name then 1 else 0 := by
    simp [correctionsOf, Event.fails, Event.invalidates]
  rw [List.append_assoc, List.singleton_append, correctionsOf_append rfl, hlast,
    correctionsOf_append (head_invoked calls), correctionsOf_invoked, Nat.add_zero]

namespace LoopState

variable {w : Settings} {scene : Scene} {s t : LoopState} {d : PhaseDef}

/-- The corrections of each phase are counted, and none has more than it declares. -/
structure Budgeted (s : LoopState) : Prop where
  counted : ∀ name, correctionsOf name s.events ≤ s.correctionBudget name
  declared : ∀ name, s.correctionBudget name = 0 ∨ ∃ d ∈ s.phases, ¬ d.Expands ∧ d.name = name ∧
    s.correctionBudget name ≤ declaredGateRetry d

lemma conclude_budget (s : LoopState) (index : ℕ) (d : PhaseDef) (pr : PhaseResult) :
    (s.conclude w index d pr).correctionBudget = s.correctionBudget ∨
    (s.correctionBudget d.name < declaredGateRetry d ∧
      (s.conclude w index d pr).correctionBudget =
        Function.update s.correctionBudget d.name (s.correctionBudget d.name + 1)) := by
  rw [conclude]
  split
  · exact Or.inl rfl
  split
  · simp only [correct]
    split
    · split
      · exact Or.inl rfl
      · rename_i hused
        right
        refine ⟨not_le.mp hused, ?_⟩
        split
        · rfl
        · split
          · rfl
          · split
            · rfl
            · rw [rewind_correctionBudget]
    · exact Or.inl rfl
  · exact Or.inl rfl

lemma Budgeted.executed (h : s.Budgeted) (hexecutes : s.Executes d) (e : Executed) :
    ({ s with
      index := s.index + 1
      locals := e.locals
      events := s.events ++ e.calls.map Event.invoked : LoopState }.conclude w s.index d
        e.record).Budgeted := by
  generalize hu : ({ s with
    index := s.index + 1
    locals := e.locals
    events := s.events ++ e.calls.map Event.invoked } : LoopState) = u
  have hphases : u.phases = s.phases := by rw [← hu]
  have hbudget : u.correctionBudget = s.correctionBudget := by rw [← hu]
  have hevents : u.events = s.events ++ e.calls.map Event.invoked := by rw [← hu]
  have hdeclared := u.conclude_budget (w := w) s.index d e.record
  generalize hc : u.conclude w s.index d e.record = c at hdeclared
  have hconcluded : Concluded w u s.index d e.record c := by
    rw [← hc]
    exact u.concluded s.index d e.record
  have hsame : c.phases = s.phases := by
    rw [← hphases]
    cases hconcluded <;> simp only [rewind_phases]
  have hmono (name : String) : s.correctionBudget name ≤ c.correctionBudget name := by
    rw [← hbudget]
    rcases hdeclared with heq | ⟨-, heq⟩
    · rw [heq]
    · rw [heq]
      by_cases hname : name = d.name
      · rw [hname, Function.update_self]
        exact Nat.le_succ _
      · rw [Function.update_of_ne hname]
  refine ⟨fun name => ?_, fun name => ?_⟩
  · cases hconcluded with
    | checkpoint =>
      rw [hevents, correctionsOf_executed]
      exact (h.counted name).trans (hmono name)
    | next =>
      rw [hevents, correctionsOf_executed]
      exact (h.counted name).trans (hmono name)
    | stopped =>
      rw [hevents, correctionsOf_executed]
      exact (h.counted name).trans (hmono name)
    | rewound target producer hfailed =>
      rw [rewind_events, rewind_correctionBudget, hfailed, hevents, correctionsOf_invalidated]
      dsimp only
      by_cases hname : d.name = name
      · rw [if_pos hname, ← hname, Function.update_self, hbudget]
        exact Nat.succ_le_succ (h.counted d.name)
      · rw [if_neg hname, Function.update_of_ne (Ne.symm hname), hbudget]
        exact h.counted name
  · rw [hsame]
    rcases hdeclared with heq | ⟨hlt, heq⟩
    · rw [heq, hbudget]
      exact h.declared name
    · rw [heq, hbudget]
      by_cases hname : name = d.name
      · right
        refine ⟨d, List.mem_of_getElem? hexecutes.2.1, hexecutes.2.2.1, hname.symm, ?_⟩
        rw [hname, Function.update_self, ← hbudget]
        exact hlt
      · rw [Function.update_of_ne hname]
        exact h.declared name

lemma Budgeted.turned (h : s.Budgeted) (hturned : Turned w scene s t) : t.Budgeted := by
  cases hturned with
  | ended => exact h
  | refused d message =>
    refine ⟨fun name => ?_, h.declared⟩
    have hlast : correctionsOf name [.executed d.name .failed] = 0 := by
      simp [correctionsOf]
    rw [refuseExpansion, correctionsOf_append rfl, hlast]
    exact h.counted name
  | expanded d phases hrunning hphase hexpands hplan =>
    refine ⟨h.counted, fun name => (h.declared name).imp_right ?_⟩
    rintro ⟨d', hd', hnot, hname, hle⟩
    obtain ⟨target, units, -, -, -, rfl⟩ := expandPlanPhases_some hplan
    refine ⟨d', List.mem_flatMap.mpr ⟨d', hd', ?_⟩, hnot, hname, hle⟩
    rw [if_neg hnot]
    exact List.mem_singleton_self _
  | skipped d =>
    refine ⟨fun name => ?_, h.declared⟩
    have hlast : correctionsOf name [.skipped d.name] = 0 := by
      simp [correctionsOf]
    rw [correctionsOf_append rfl, hlast]
    exact h.counted name
  | executed d e hexecutes => exact h.executed hexecutes e

lemma corrections_le {phases : List PhaseDef} {opening : Opening} {scenes : ℕ → Scene} (n : ℕ)
    (hn : after w (start w phases opening) scenes n = some s) (name : String) :
    correctionsOf name s.events = 0 ∨
      ∃ d ∈ s.phases, d.name = name ∧ correctionsOf name s.events ≤ declaredGateRetry d := by
  have hbudgeted : s.Budgeted := by
    induction n generalizing s with
    | zero =>
      cases hn
      have hstart : (start w phases opening).events = [] ∧
          (start w phases opening).correctionBudget = fun _ => 0 := by
        rw [start]
        split
        · exact ⟨rfl, rfl⟩
        · dsimp only
          split <;> exact ⟨rfl, rfl⟩
      exact ⟨fun name => by rw [hstart.1]; exact Nat.zero_le _,
        fun name => Or.inl (by rw [hstart.2])⟩
    | succ n ih =>
      obtain ⟨before, hbefore, hturn⟩ := Option.bind_eq_some_iff.mp hn
      exact (ih hbefore).turned (Turned.of_turn hturn)
  rcases hbudgeted.declared name with hzero | ⟨d, hd, -, hname, hle⟩
  · exact Or.inl (Nat.le_zero.mp (hzero ▸ hbudgeted.counted name))
  · exact Or.inr ⟨d, hd, hname, (hbudgeted.counted name).trans hle⟩

end LoopState

/-! ### One rule set -/

/-- A phase that enters the gate ok is judged rightly exactly if the outcome is plain; a suite
leaves the same whether it ran in a container or in process; and a phase is never corrected more
often than it declares. -/
theorem one_rule_set_iff (rt : Runtime) (kind : String) (rows : Option (List AttemptRow))
    (pr : PhaseResult) (targets : List String) (emptyRefuses : Bool) (w : Settings)
    (phases : List PhaseDef) (opening : Opening) (scenes : ℕ → Scene) (hok : pr.status = .ok) :
    (∀ o : VerifierOutcome, o.Judged rt targets emptyRefuses kind rows pr ↔
      o.Plain rt kind rows pr targets emptyRefuses) ∧
    (∀ suite : SuiteResult, ∃ found found',
      verifiedRecord rt kind rows pr (.dispatched suite.verdict) targets emptyRefuses =
        some found ∧
      verifiedRecord rt kind rows pr (.ran suite) targets emptyRefuses = some found' ∧
      found.status = found'.status ∧ found.testsTotal = found'.testsTotal ∧
      found.testExecutedSuccess = found'.testExecutedSuccess) ∧
    ∀ n s name, after w (start w phases opening) scenes n = some s →
      correctionsOf name s.events = 0 ∨
        ∃ d ∈ s.phases, d.name = name ∧ correctionsOf name s.events ≤ declaredGateRetry d := by
  refine ⟨fun o => ?_, verifiedRecord_verdict,
    fun n s name hn => LoopState.corrections_le n hn name⟩
  cases o with
  | dispatched v       => exact VerifierOutcome.judged_dispatched_iff v hok
  | ran suite          => exact VerifierOutcome.judged_ran_iff suite hok
  | raised message     =>
    refine iff_of_true (VerifierOutcome.judged_of_infrastructure rfl rfl ?_ trivial) trivial
    exact marked_iff.mpr (Or.inr (Or.inl
      (startsWith_trans (startsWith_append "VERIFIER_ERROR: " message) (by decide))))
  | refused            =>
    refine iff_of_true (VerifierOutcome.judged_of_infrastructure rfl rfl ?_ trivial) trivial
    exact marked_iff.mpr (Or.inl (startsWith_append _ _))
  | suiteRaised message =>
    have hraised : (VerifierOutcome.suiteRaised message).suiteRun rt pr.phase =
        .error (.exception message) := rfl
    exact VerifierOutcome.judged_of_raised hraised trivial

/-- The rules for an in-process suite of a test phase with one declared target. -/
theorem declared_suite_judged :
    let rt : Runtime :=
      { loads := fun _ => .error ("", ""), repr := fun _ => "", upper := id, lower := id }
    let pr : PhaseResult := { phase := "verify", kind := "test" }
    let failing : VerifierOutcome := .ran ⟨3, 1, 0, 4, "1 failed, 3 passed"⟩
    pr.status = .ok ∧ failing.Judged rt ["tests/test_world.py"] true "test" none pr := by
  intro rt pr failing
  refine ⟨rfl, ?_⟩
  refine ((one_rule_set_iff rt "test" none pr ["tests/test_world.py"] true
    { repr := fun _ => "" } [] ⟨.ok [], none⟩ (fun _ => agentScene none (.stalled "")) rfl).1
      failing).mpr ?_
  have hfail : 0 < 1 ∨ 0 < 0 := by decide
  rw [VerifierOutcome.Plain, if_pos hfail]
  decide

/-- A verdict that calls a suite with a failed test ok is believed; and a verifier that could not
run its container counts as a failed verification, and has its producer run again. -/
theorem odd_verdicts_misjudged :
    let rt : Runtime :=
      { loads := fun _ => .error ("", ""), repr := fun _ => "", upper := id, lower := id }
    let pr : PhaseResult := { phase := "verify", kind := "test" }
    let believed : Verdict := { ok := .bool true, testsPassed := .int 1, testsTotal := .int 2 }
    let unavailable : Verdict := { error := .str "docker: no such image" }
    ¬ (VerifierOutcome.dispatched believed).Judged rt [] true "test" none pr ∧
      ¬ (VerifierOutcome.dispatched unavailable).Judged rt [] true "test" none pr := by
  intro rt pr believed unavailable
  constructor
  · rintro ⟨hleft, -⟩
    refine (hleft ⟨_, rfl, rfl⟩).passed ⟨(1, 2), rfl, ?_⟩
    decide
  · rintro ⟨-, hfailure⟩
    refine (hfailure.mp ⟨_, rfl, ?_⟩).1 ⟨rfl, rfl, rfl⟩
    decide

end AgenticDynamics.Execution
