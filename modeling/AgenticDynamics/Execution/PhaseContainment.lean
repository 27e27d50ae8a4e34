import AgenticDynamics.Execution.LoopTurns

/-!
# Phases that raise

An exception in the try block of a phase is handled with the rows and the head the phase has bound.
A phase that raises before it has bound them is handled with what an earlier phase has left, or with
nothing, and then the exception leaves the runner.
-/

namespace AgenticDynamics.Execution

open Python

variable {w : Settings} {scene : Scene} {s t : LoopState} {d : PhaseDef} {pr : PhaseResult}
  {seed : List AttemptRow} {executions : ℕ} {l : Locals}

/-! ### What is asked of a phase that raises -/

/-- The phase raises before its attempt rows and its head are bound: a test phase wherever it
raises, an agent phase in its artifact gate, its shape gate or its prompt. -/
def PhaseDef.RaisesUnbound (d : PhaseDef) (scene : Scene) : Prop :=
  if d.kind = "test" then
    (∃ e, resolveTestTargets d scene.planTargets = .error e) ∨
      ((∃ targets, resolveTestTargets d scene.planTargets = .ok (targets, false)) ∧
        ∃ e, scene.suite = .error e)
  else ∃ e, scene.agent.unprepared = some e

namespace LoopState

/-- What the phase raises in this turn, where it does. -/
def raises (w : Settings) (s : LoopState) (d : PhaseDef) (scene : Scene) : Option Raised :=
  (tryPhase w d (s.priorInvocations d.name) (s.executionCount d.name) scene
    { phase := d.name, kind := d.kind } s.locals).raised

/-- The phase of the turn does not crash the runner, its record is the same whatever earlier phases
have left, and if it raises it has failed with its own error in front. -/
def Contained (w : Settings) (s : LoopState) (scene : Scene) : Prop :=
  ∀ d, s.Executes d → ∃ pr : PhaseResult,
    (∀ l, (executePhase w d (s.priorInvocations d.name) (s.executionCount d.name) scene l).map
      Executed.record = some pr) ∧
    ∀ e, s.raises w d scene = some e →
      pr.status = .failed ∧ ∃ notes, pr.error = e.error ++ notes

end LoopState

/-- The commit gate rewrites no commits of the phase. -/
def Gates.Strict (gates : Gates) : Prop :=
  ∀ head note, gates.commitPrefix head ≠ .canonicalized note

/-! ### A record that has failed -/

/-- The record has failed, with an error of which this holds. -/
def PhaseResult.FailedWith (P : String → Prop) (pr : PhaseResult) : Prop :=
  pr.status = .failed ∧ P pr.error

/-- What the gates make of an error: they add lines to it, or put their note in its place. -/
structure Gates.Keeps (gates : Gates) (P : String → Prop) : Prop where
  line : ∀ error message, P error → P (error ++ "\n" ++ message)
  note : ∀ head note, gates.commitPrefix head = .canonicalized note → P note

lemma Gates.Strict.keeps {gates : Gates} (h : gates.Strict) (error : String) :
    gates.Keeps fun text => ∃ notes, text = error ++ notes where
  line := by
    rintro _ message ⟨notes, rfl⟩
    exact ⟨notes ++ "\n" ++ message, by simp only [String.append_assoc]⟩
  note head note hnote := absurd hnote (h head note)

namespace PhaseResult

variable {P : String → Prop} {gates : Gates}

lemma FailedWith.refuse (h : pr.FailedWith P) (hkeeps : gates.Keeps P) (message : String) :
    (pr.refuse message).FailedWith P := by
  rw [PhaseResult.refuse, if_neg (by rw [h.1]; decide)]
  exact ⟨h.1, hkeeps.line _ message h.2⟩

lemma FailedWith.enforce (h : pr.FailedWith P) (hkeeps : gates.Keeps P)
    (message : Option String) : (pr.enforce message).FailedWith P := by
  cases message with
  | none         => exact h
  | some message => exact h.refuse hkeeps message

lemma FailedWith.enforceCommitPrefix (h : pr.FailedWith P) (hkeeps : gates.Keeps P)
    (head : String) : (pr.enforceCommitPrefix (gates.commitPrefix head)).FailedWith P := by
  cases hverdict : gates.commitPrefix head with
  | conforming         => exact h
  | noChanges message  =>
    rw [PhaseResult.enforceCommitPrefix, if_neg (by rw [h.1]; decide)]
    exact h
  | canonicalized note => exact ⟨h.1, hkeeps.note head note hverdict⟩
  | violated message   => exact h.refuse hkeeps message

lemma FailedWith.gated (h : pr.FailedWith P) (hkeeps : gates.Keeps P) (preHead : String) :
    (pr.gated w d gates preHead).FailedWith P := by
  have hnot : ¬ (d.testGate = true ∧ pr.status = .ok) := by
    rw [h.1]
    exact fun hok => nomatch hok.2
  have hgate := (h.enforce hkeeps gates.deploy).enforceCommitPrefix hkeeps preHead
  rw [PhaseResult.gated, if_neg hnot, if_neg (by rw [hgate.1]; decide)]
  exact hgate

lemma FailedWith.committed (h : pr.FailedWith P) : (pr.committed w gates).FailedWith P := by
  have hnot : pr.status ≠ .ok := by
    rw [h.1]
    decide
  rw [PhaseResult.committed, if_neg hnot, if_neg (c := w.commit = true ∧ _) fun hok => hnot hok.2,
    ite_self]
  exact h

lemma FailedWith.timed (h : pr.FailedWith P) (timedOut : Bool) :
    (pr.timed timedOut).FailedWith P := by
  rw [PhaseResult.timed, if_neg]
  · exact h
  · rw [h.1]
    exact fun hok => nomatch hok.2.1

end PhaseResult

lemma afterTry_failedWith {P : String → Prop} {gates : Gates} {pr' : PhaseResult}
    (h : pr.FailedWith P) (hkeeps : gates.Keeps P)
    (hafter : afterTry w d gates pr l = some pr') : pr'.FailedWith P := by
  rw [afterTry] at hafter
  split_ifs at hafter with hkind
  · cases hafter
    exact h.committed.timed _
  · obtain ⟨preHead, -, rfl⟩ := Option.map_eq_some_iff.mp hafter
    exact ((h.gated hkeeps preHead).committed.timed _).enforce hkeeps _

/-! ### The handlers -/

lemma addAttempt_status (pr : PhaseResult) (rows : List AttemptRow) :
    (rows.foldl PhaseResult.addAttempt pr).status = pr.status ∧
      (rows.foldl PhaseResult.addAttempt pr).error = pr.error := by
  induction rows generalizing pr with
  | nil => exact ⟨rfl, rfl⟩
  | cons row rows ih => exact ih (pr.addAttempt row)

lemma applyAttemptTotals_status (pr : PhaseResult) (rows : List AttemptRow) (includeLast : Bool) :
    (applyAttemptTotals pr rows includeLast).status = pr.status ∧
      (applyAttemptTotals pr rows includeLast).error = pr.error := by
  rw [applyAttemptTotals]
  split_ifs <;> exact addAttempt_status pr _

lemma Trial.handled_failedWith {trial : Trial} {e : Raised} (hraised : trial.raised = some e)
    (h : trial.handled = some pr) : pr.FailedWith (· = e.error) := by
  rw [Trial.handled, hraised] at h
  obtain ⟨rows, -, rfl⟩ := Option.map_eq_some_iff.mp h
  exact applyAttemptTotals_status { trial.record with status := .failed, error := e.error } rows true

/-! ### Where a phase raises -/

lemma tryAdmitted_locals (w : Settings) (d : PhaseDef) (seed : List AttemptRow) (executions : ℕ)
    (scene : AgentScene) (pr : PhaseResult) :
    ∃ rows preHead,
      (tryAdmitted w d seed executions scene pr).locals = ⟨some rows, some preHead⟩ := by
  rw [tryAdmitted]
  split
  · exact ⟨_, _, rfl⟩
  · dsimp only
    split
    · exact ⟨_, _, rfl⟩
    · exact ⟨_, _, rfl⟩
    · split <;> exact ⟨_, _, rfl⟩

lemma tryPhase_of_raisesUnbound (w : Settings) (seed : List AttemptRow) (executions : ℕ)
    (pr : PhaseResult) (l : Locals) (h : d.RaisesUnbound scene) :
    ∃ e, tryPhase w d seed executions scene pr l = ⟨pr, l, some e, []⟩ := by
  rw [PhaseDef.RaisesUnbound] at h
  rw [tryPhase]
  split_ifs at h ⊢ with hkind
  · rcases h with ⟨e, he⟩ | ⟨⟨targets, htargets⟩, e, he⟩
    · exact ⟨e, by rw [tryTest, he]⟩
    · exact ⟨e, by rw [tryTest, htargets]; simp only [he]⟩
  · obtain ⟨e, he⟩ := h
    exact ⟨e, by rw [tryAgent, he]⟩

lemma tryPhase_of_not_raisesUnbound (w : Settings) (seed : List AttemptRow) (executions : ℕ)
    (pr : PhaseResult) (h : ¬ d.RaisesUnbound scene) :
    (d.kind = "test" ∧ ∃ pr', ∀ l, tryPhase w d seed executions scene pr l = ⟨pr', l, none, []⟩) ∨
    (d.kind ≠ "test" ∧ ∀ l, tryPhase w d seed executions scene pr l =
      tryAdmitted w d seed executions scene.agent pr) := by
  rw [PhaseDef.RaisesUnbound] at h
  by_cases hkind : d.kind = "test"
  · left
    rw [if_pos hkind, not_or] at h
    refine ⟨hkind, ?_⟩
    simp only [tryPhase, if_pos hkind, tryTest]
    cases htargets : resolveTestTargets d scene.planTargets with
    | error e => exact absurd ⟨e, htargets⟩ h.1
    | ok found =>
      obtain ⟨targets, skipped⟩ := found
      cases skipped with
      | true  => exact ⟨pr, fun l => rfl⟩
      | false =>
        cases hsuite : scene.suite with
        | error e  => exact absurd ⟨⟨targets, htargets⟩, e, hsuite⟩ h.2
        | ok suite => exact ⟨_, fun l => rfl⟩
  · right
    rw [if_neg hkind] at h
    refine ⟨hkind, fun l => ?_⟩
    rw [tryPhase, if_neg hkind, tryAgent]
    cases hunprepared : scene.agent.unprepared with
    | some e => exact absurd ⟨e, hunprepared⟩ h
    | none   => rfl

lemma executePhase_of_raisesUnbound (h : d.RaisesUnbound scene) :
    executePhase w d seed executions scene {} = none := by
  obtain ⟨e, he⟩ :=
    tryPhase_of_raisesUnbound w seed executions { phase := d.name, kind := d.kind } {} h
  rw [executePhase, he]
  rfl

lemma executePhase_of_not_raisesUnbound (w : Settings) (seed : List AttemptRow) (executions : ℕ)
    (h : ¬ d.RaisesUnbound scene) :
    ∃ pr : PhaseResult, ∀ l, (executePhase w d seed executions scene l).map Executed.record =
      some pr := by
  rcases tryPhase_of_not_raisesUnbound w seed executions { phase := d.name, kind := d.kind } h with
    ⟨hkind, pr', hpr'⟩ | ⟨hkind, htry⟩
  · refine ⟨(pr'.committed w scene.gates).timed scene.gates.timedOut, fun l => ?_⟩
    rw [executePhase, hpr']
    simp only [Trial.handled, afterTry, if_pos hkind]
    rfl
  · simp only [executePhase, htry]
    obtain ⟨rows, preHead, hlocals⟩ := tryAdmitted_locals w d seed executions scene.agent
      { phase := d.name, kind := d.kind }
    generalize tryAdmitted w d seed executions scene.agent { phase := d.name, kind := d.kind } =
      trial at hlocals
    obtain ⟨pr', hpr'⟩ : ∃ pr', trial.handled = some pr' := by
      rw [Trial.handled, hlocals]
      cases trial.raised with
      | none   => exact ⟨_, rfl⟩
      | some e => exact ⟨_, rfl⟩
    rw [hpr', hlocals]
    simp only [afterTry, if_neg hkind]
    exact ⟨_, fun _ => rfl⟩

lemma executePhase_failedWith {P : String → Prop} {e : Raised} {executed : Executed}
    (hraised : (tryPhase w d seed executions scene { phase := d.name, kind := d.kind } l).raised =
      some e) (hP : P e.error) (hkeeps : scene.gates.Keeps P)
    (h : executePhase w d seed executions scene l = some executed) :
    executed.record.FailedWith P := by
  obtain ⟨pr, hpr, h⟩ := Option.bind_eq_some_iff.mp h
  obtain ⟨pr', hafter, rfl⟩ := Option.map_eq_some_iff.mp h
  obtain ⟨hstatus, herror⟩ := Trial.handled_failedWith hraised hpr
  exact afterTry_failedWith ⟨hstatus, herror ▸ hP⟩ hkeeps hafter

/-! ### Runs -/

namespace LoopState

lemma turn_isSome (w : Settings) (scene : Scene)
    (h : ∀ d, s.Executes d → ¬ d.RaisesUnbound scene) :
    ∃ t, s.turn w scene = some t := by
  rw [turn]
  by_cases hstopped : s.stopped = true
  · exact ⟨s, if_pos hstopped⟩
  rw [if_neg hstopped]
  cases hphase : s.phases[s.index]? with
  | none   => exact ⟨s, rfl⟩
  | some d =>
    simp only
    by_cases hexpands : d.Expands
    · rw [if_pos hexpands]
      split <;> exact ⟨_, rfl⟩
    rw [if_neg hexpands]
    by_cases hskip : s.resume ∧ d.name ∈ s.completed
    · rw [if_pos hskip]
      exact ⟨_, rfl⟩
    rw [if_neg hskip]
    obtain ⟨pr, hpr⟩ := executePhase_of_not_raisesUnbound w
      (s.priorInvocations d.name) (s.executionCount d.name)
      (h d ⟨by simpa using hstopped, hphase, hexpands, hskip⟩)
    obtain ⟨e, he, -⟩ := Option.map_eq_some_iff.mp (hpr s.locals)
    exact ⟨_, by rw [he]; rfl⟩

lemma contained_iff (hstrict : ∀ d e, s.Executes d → s.raises w d scene = some e →
    scene.gates.Strict) :
    s.Contained w scene ↔ ∀ d, s.Executes d → ¬ d.RaisesUnbound scene := by
  constructor
  · intro h d hd hraises
    obtain ⟨pr, hpr, -⟩ := h d hd
    have := hpr {}
    rw [executePhase_of_raisesUnbound hraises] at this
    cases this
  · intro h d hd
    obtain ⟨pr, hpr⟩ := executePhase_of_not_raisesUnbound w
      (s.priorInvocations d.name) (s.executionCount d.name) (h d hd)
    refine ⟨pr, hpr, fun e he => ?_⟩
    obtain ⟨executed, hexecuted, rfl⟩ := Option.map_eq_some_iff.mp (hpr s.locals)
    exact executePhase_failedWith he ⟨"", by simp⟩ ((hstrict d e hd he).keeps e.error) hexecuted

end LoopState

lemma returns_of_not_raisesUnbound {phases : List PhaseDef} {opening : Opening}
    {scenes : ℕ → Scene} (h : ∀ n s d, after w (start w phases opening) scenes n = some s →
      s.Executes d → ¬ d.RaisesUnbound (scenes n)) :
    ∃ result, Returns w (start w phases opening) scenes result := by
  refine returns_of_forall_some fun n => ?_
  induction n with
  | zero => exact ⟨_, rfl⟩
  | succ n ih =>
    obtain ⟨s, hs⟩ := ih
    rw [after, hs]
    exact LoopState.turn_isSome w _ fun d => h n s d hs

lemma not_raisesUnbound (d : PhaseDef) {targets : List String} {suite : SuiteRun}
    (hagent : scene.agent.unprepared = none) (htargets : scene.planTargets = .ok targets)
    (hsuite : scene.suite = .ok suite) : ¬ d.RaisesUnbound scene := by
  rw [PhaseDef.RaisesUnbound, hagent, htargets, hsuite]
  split_ifs
  · rintro (⟨e, he⟩ | ⟨-, e, he⟩)
    · rw [resolveTestTargets] at he
      split at he
      · cases he
      · cases he
      · split_ifs at he
        cases he
    · cases he
  · rintro ⟨e, he⟩
    cases he

/-! ### Two runs -/

def plainSettings : Settings := { repr := fun _ => "" }

def quietGates : Gates where
  suite := { failure := none, testsTotal := 1, testExecutedSuccess := some true }
  deploy := none
  commitPrefix _ := .conforming
  docContract _ := none
  head := "0123abc"
  commit := .ok "0123abc"
  timedOut := false
  tree _ := none

/-- A turn in which an agent answers, or what it does instead. -/
def agentScene (unprepared : Option Raised) (answer : Answer) : Scene where
  plan := .error "plan units artifact not found: plan.json"
  planTargets := .ok []
  suite := .ok { failure := none, testsTotal := 1, testExecutedSuccess := some true }
  agent := {
    unprepared
    admitted := .ok "model"
    head := "0123abc"
    invocation := fun _ => { reservation := none, answer }
    unprocessed := none }
  gates := quietGates

end AgenticDynamics.Execution
