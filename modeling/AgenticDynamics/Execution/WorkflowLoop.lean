import AgenticDynamics.Library.Python

/-!
# The phase loop

A run executes the phases of a workflow one after another, skips those a resume brings evidence for,
replaces the one that declares a plan by the units of the plan, and goes back to the producer of a
work that failed its verification. What the agents, the suites, git and the spend gate do to a phase
is what the phase meets in one turn of the loop.
-/

namespace AgenticDynamics.Execution

open Python

/-! ### Phases and their records -/

/-- A phase definition, less what only the agent and the gates around it read. -/
structure PhaseDef where
  declaredName : Option String
  kind : String := "agent"
  expandFromPlan : String := ""
  gateRetry : Json := .int 0
  checkpoint : Bool := false
  testGate : Bool := false
  /-- `tests`, absent or a list of targets. -/
  tests : Option (List String) := none
  testsFromPlan : String := ""
  preparedStep : Bool := false

/-- `str(phase_def.get("name", "?"))`. -/
def PhaseDef.name (d : PhaseDef) : String := d.declaredName.getD "?"

/-- The phase declares `expand_from_plan`. -/
def PhaseDef.Expands (d : PhaseDef) : Prop := d.expandFromPlan ≠ ""

instance (d : PhaseDef) : Decidable d.Expands := inferInstanceAs (Decidable (_ ≠ _))

inductive PhaseStatus
  | ok
  | failed
  | awaiting
  deriving DecidableEq, Repr

/-- The counters of one invocation; a counter that is absent is zero. -/
@[ext] structure TokenCounts where
  input : ℤ
  output : ℤ
  reasoning : ℤ
  answer : ℤ
  explanation : ℤ
  total : ℤ
  deriving DecidableEq, Repr

namespace TokenCounts

instance : Zero TokenCounts := ⟨⟨0, 0, 0, 0, 0, 0⟩⟩

instance : Add TokenCounts :=
  ⟨fun a b => ⟨a.input + b.input, a.output + b.output, a.reasoning + b.reasoning,
    a.answer + b.answer, a.explanation + b.explanation, a.total + b.total⟩⟩

end TokenCounts

structure AttemptRow where
  attemptNumber : ℕ
  model : String
  status : PhaseStatus
  costUsd : ℚ
  tokens : TokenCounts
  escalationFrom : Option String
  escalationTo : Option String
  retryReason : String
  deriving DecidableEq, Repr

structure PhaseResult where
  phase : String
  kind : String
  model : String := ""
  status : PhaseStatus := .ok
  error : String := ""
  costUsd : ℚ := 0
  tokens : TokenCounts := 0
  attempts : List AttemptRow := []
  testsTotal : ℤ := 0
  testExecutedSuccess : Option Bool := none
  commitHash : String := ""
  deriving DecidableEq, Repr

/-- `round(x, 6)`. -/
def round6 (x : ℚ) : ℚ := roundHalfEven (x * 10 ^ 6) / 10 ^ 6

/-- The cost and the tokens of one more attempt. -/
def PhaseResult.addAttempt (pr : PhaseResult) (row : AttemptRow) : PhaseResult :=
  { pr with costUsd := round6 (pr.costUsd + row.costUsd), tokens := pr.tokens + row.tokens }

def applyAttemptTotals (pr : PhaseResult) (rows : List AttemptRow) (includeLast : Bool) :
    PhaseResult :=
  let summed := (if includeLast then rows else rows.dropLast).foldl PhaseResult.addAttempt pr
  if 1 < rows.length then { summed with attempts := rows } else summed

/-- A gate that fails a phase; a phase that failed before keeps its error in front. -/
def PhaseResult.refuse (pr : PhaseResult) (message : String) : PhaseResult :=
  if pr.status = .ok then { pr with status := .failed, error := message }
  else { pr with error := pr.error ++ "\n" ++ message }

/-! ### Verification -/

inductive Raised
  | admissionRefused (message : String)
  | exception (repr : String)
  deriving DecidableEq, Repr

def Raised.error : Raised → String
  | .admissionRefused message => "ADMISSION_DENIED: " ++ message
  | .exception repr           => repr

/-- What a suite, a verifier or its refusal leaves on the record. -/
structure SuiteRun where
  failure : Option String
  testsTotal : ℤ
  testExecutedSuccess : Option Bool

/-- `_run_test_gate`, after the suite was dispatched. -/
def runTestGate (repr : Json → String) (pr : PhaseResult) (suite : SuiteRun)
    (targets : List String) (emptyRefuses : Bool) : PhaseResult :=
  let pr := { pr with
    testsTotal := suite.testsTotal, testExecutedSuccess := suite.testExecutedSuccess }
  match suite.failure with
  | some error =>
    let marked := ["VERIFIER_", "ADMISSION_", "TEST_GATE:"].any fun p => startsWith error p
    { pr with
      status := .failed
      error := if marked then error
        else if error = "" then "TEST_GATE: verification failed" else "TEST_GATE: " ++ error }
  | none =>
    if emptyRefuses ∧ pr.testsTotal = 0 then
      { pr with
        status := .failed
        error := "TEST_GATE: required verification ran no tests (total 0 — a required gate " ++
          "needs a nonempty passing suite or an explicit refusal)" }
    else if targets ≠ [] ∧ pr.testExecutedSuccess ≠ some true then
      { pr with
        status := .failed
        error := if pr.error = "" then
            "TEST_GATE: declared verification ran no tests (total " ++
              toString pr.testsTotal ++ " — target " ++ repr (.arr (targets.map .str)) ++
              " resolved to nothing; a missing file or an empty collection)"
          else pr.error }
    else pr

/-- `_resolve_test_targets`: the targets, and whether the gate is skipped. -/
def resolveTestTargets (d : PhaseDef) (fromPlan : Except Raised (List String)) :
    Except Raised (List String × Bool) :=
  match d.tests with
  | some []      => .ok ([], true)
  | some targets => .ok (targets, false)
  | none         =>
    if strip d.testsFromPlan = "" then .ok ([], false)
    else fromPlan.map fun targets => (targets, targets = [])

def declaredGateRetry (d : PhaseDef) : ℕ :=
  match d.gateRetry with
  | .int n => n.toNat
  | _      => 0

/-- `_verification_failure`; a count of tests is never None. -/
def verificationFailure (pr : PhaseResult) (kind : String) : Bool :=
  pr.status = .failed ∧
    ¬ (["VERIFIER_REFUSED", "VERIFIER_ERROR", "ADMISSION_DENIED"].any fun p =>
      startsWith pr.error p) ∧
    (kind = "test" ∨ startsWith pr.error "TEST_GATE:")

/-! ### One turn of the loop -/

structure EscalationPlan where
  ladder : List String
  maxAttempts : ℕ

def EscalationPlan.successor (plan : EscalationPlan) (model : String) (attemptsMade : ℕ) :
    Option String :=
  if plan.maxAttempts ≤ attemptsMade then none
  else (plan.ladder.dropWhile (· ≠ model)).tail.head?

/-- What an agent returns, less what only its record keeps. -/
structure AgentResult where
  ok : Bool
  error : String
  costUsd : ℚ
  tokens : TokenCounts
  deriving DecidableEq, Repr

inductive Answer
  | raised (e : Raised)
  | stalled (evidence : String)
  | answered (result : AgentResult)

/-- One invocation; the reservation is asked for by a retry. -/
structure Invocation where
  reservation : Option Raised
  answer : Answer

structure AgentScene where
  /-- The artifact gate, the shape gate or the prompt. -/
  unprepared : Option Raised
  /-- Routing, admission and augmentation: the model. -/
  admitted : Except Raised String
  /-- The head before the agent runs. -/
  head : String
  invocation : ℕ → Invocation
  /-- The processing of the result, once its cost is on the record. -/
  unprocessed : Option Raised

/-- What the commit gate makes of the commits since a head. -/
inductive CommitVerdict
  | conforming
  | noChanges (message : String)
  | canonicalized (note : String)
  | violated (message : String)

/-- The work of a phase after its try block; three of the gates read the head from before it. -/
structure Gates where
  suite : SuiteRun
  deploy : Option String
  commitPrefix : String → CommitVerdict
  docContract : String → Option String
  /-- The head a test phase binds to. -/
  head : String
  /-- The commit of the phase, or why its work is not committed. -/
  commit : Except String String
  timedOut : Bool
  tree : String → Option String

/-- A unit of a plan, less what only the prompts show. -/
structure PlanUnit where
  id : String
  tests : List String

structure Scene where
  /-- The plan of the phase that declares one: loaded, in order, within its cap and its budget. -/
  plan : Except String (List PlanUnit)
  planTargets : Except Raised (List String)
  suite : Except Raised SuiteRun
  agent : AgentScene
  gates : Gates

structure Call where
  phase : String
  attempt : ℕ
  answer : Answer

inductive Event
  | invoked (call : Call)
  | executed (phase : String) (status : PhaseStatus)
  | skipped (phase : String)
  | invalidated (phases : List String)

/-- The variables of the function that a phase binds half way through its try block; they are not
bound before the first agent phase, and keep their values from one turn to the next. -/
structure Locals where
  attemptRows : Option (List AttemptRow) := none
  preHead : Option String := none
  deriving DecidableEq, Repr

structure Settings where
  stopOnError : Bool := true
  commit : Bool := true
  attemptBase : ℕ := 1
  escalation : Option EscalationPlan := none
  repr : Json → String

/-- How the invocations of a phase end: the result of the last one is absent where it stalled. -/
structure Attempted where
  record : PhaseResult
  rows : List AttemptRow
  raised : Option Raised
  result : Option AgentResult
  calls : List Call

section Turn

variable (w : Settings)

/-- The escalation loop. The number that is left bounds it by the ladder's own cap. -/
def attemptLoop (d : PhaseDef) (seeded executions : ℕ) (invocation : ℕ → Invocation) :
    ℕ → ℕ → String → PhaseResult → List AttemptRow → Attempted
  | left, attemptNo, model, pr, rows =>
    let scene := invocation attemptNo
    match if 1 < attemptNo then scene.reservation else none with
    | some e => ⟨pr, rows, some e, none, []⟩
    | none   =>
      let pr := { pr with error := if 1 < attemptNo then "" else pr.error, model := model }
      let call : Call := ⟨d.name, w.attemptBase + executions + attemptNo - 1, scene.answer⟩
      let row (status : PhaseStatus) (costUsd : ℚ) (tokens : TokenCounts) : AttemptRow :=
        { attemptNumber := seeded + attemptNo, model, status, costUsd, tokens
          escalationFrom := if 1 < attemptNo then rows.getLast?.map AttemptRow.model else none
          escalationTo := if 1 < attemptNo then some model else none
          retryReason := if 1 < attemptNo then "escalation" else "" }
      let next (pr : PhaseResult) (rows : List AttemptRow) (result : Option AgentResult)
          (failed : Bool) : Attempted :=
        match left, (if failed ∧ ¬ d.preparedStep then
            w.escalation.bind fun plan => plan.successor model attemptNo else none) with
        | left + 1, some model =>
          let later := attemptLoop d seeded executions invocation left (attemptNo + 1) model pr rows
          { later with calls := call :: later.calls }
        | _, _                 => ⟨pr, rows, none, result, [call]⟩
      match scene.answer with
      | .raised e         => ⟨pr, rows, some e, none, [call]⟩
      | .stalled evidence =>
        next { pr with status := .failed, error := evidence } (rows ++ [row .failed 0 0]) none true
      | .answered result  =>
        next pr (rows ++ [row (if result.ok then .ok else .failed) result.costUsd result.tokens])
          (some result) (!result.ok)

structure Trial where
  record : PhaseResult
  locals : Locals
  raised : Option Raised
  calls : List Call

def tryTest (d : PhaseDef) (scene : Scene) (pr : PhaseResult) (l : Locals) : Trial :=
  match resolveTestTargets d scene.planTargets with
  | .error e            => ⟨pr, l, some e, []⟩
  | .ok (_, true)       => ⟨pr, l, none, []⟩
  | .ok (targets, false) =>
    match scene.suite with
    | .error e  => ⟨pr, l, some e, []⟩
    | .ok suite =>
      let emptyRefuses := (d.tests.getD []) ≠ [] ∨ d.testsFromPlan ≠ ""
      ⟨runTestGate w.repr pr suite targets emptyRefuses, l, none, []⟩

/-- The try block of an agent phase, once its rows and its head are bound. -/
def tryAdmitted (d : PhaseDef) (seed : List AttemptRow) (executions : ℕ) (scene : AgentScene)
    (pr : PhaseResult) : Trial :=
  match scene.admitted with
  | .error e  => ⟨pr, ⟨some seed, some ""⟩, some e, []⟩
  | .ok model =>
    let cap := w.escalation.elim 0 EscalationPlan.maxAttempts
    let t := attemptLoop w d seed.length executions scene.invocation (cap - 1) 1 model pr seed
    let l : Locals := ⟨some t.rows, some scene.head⟩
    match t.raised, t.result with
    | some e, _         => ⟨t.record, l, some e, t.calls⟩
    | none, none        => ⟨applyAttemptTotals t.record t.rows false, l, none, t.calls⟩
    | none, some result =>
      let pr := { t.record with tokens := result.tokens, costUsd := result.costUsd }
      match scene.unprocessed with
      | some e => ⟨pr, l, some e, t.calls⟩
      | none   =>
        let pr := if result.ok then pr else { pr with status := .failed, error := result.error }
        ⟨applyAttemptTotals pr t.rows false, l, none, t.calls⟩

def tryAgent (d : PhaseDef) (seed : List AttemptRow) (executions : ℕ) (scene : AgentScene)
    (pr : PhaseResult) (l : Locals) : Trial :=
  match scene.unprepared with
  | some e => ⟨pr, l, some e, []⟩
  | none   => tryAdmitted w d seed executions scene pr

def tryPhase (d : PhaseDef) (seed : List AttemptRow) (executions : ℕ) (scene : Scene)
    (pr : PhaseResult) (l : Locals) : Trial :=
  if d.kind = "test" then tryTest w d scene pr l
  else tryAgent w d seed executions scene.agent pr l

/-- The two handlers. Both read the rows; where no phase has bound them the read raises, and the
exception leaves the function. -/
def Trial.handled (t : Trial) : Option PhaseResult :=
  match t.raised with
  | none   => some t.record
  | some e => t.locals.attemptRows.map fun rows =>
    applyAttemptTotals { t.record with status := .failed, error := e.error } rows true

/-- `_enforce_commit_prefix`, from its verdict. -/
def PhaseResult.enforceCommitPrefix (pr : PhaseResult) : CommitVerdict → PhaseResult
  | .conforming         => pr
  | .noChanges message  =>
    if pr.status = .ok then { pr with status := .failed, error := message } else pr
  | .canonicalized note => { pr with error := note }
  | .violated message   => pr.refuse message

/-- A gate that fails the phase if it has something to say. -/
def PhaseResult.enforce (pr : PhaseResult) (message : Option String) : PhaseResult :=
  message.elim pr pr.refuse

/-- The commit of a phase that is still in order. -/
def PhaseResult.committed (pr : PhaseResult) (gates : Gates) : PhaseResult :=
  if pr.kind = "test" then
    if pr.status = .ok then { pr with commitHash := gates.head } else pr
  else if w.commit ∧ pr.status = .ok then
    match gates.commit with
    | .ok hash       => { pr with commitHash := hash }
    | .error skipped =>
      { pr with
        status := .failed
        error := (if pr.error = "" then "" else pr.error ++ "\n") ++ skipped }
  else pr

/-- A phase that burned its window and has nothing committed. -/
def PhaseResult.timed (pr : PhaseResult) (timedOut : Bool) : PhaseResult :=
  if timedOut ∧ pr.status = .ok ∧ pr.commitHash = "" then
    { pr with
      status := .failed
      error := "TIMEOUT: phase burned its full timeout window and recorded no committed " ++
        "deliverable — a wall-burned phase without a deliverable cannot be ok" }
  else pr

/-- The gates of an agent phase before its commit. -/
def PhaseResult.gated (pr : PhaseResult) (d : PhaseDef) (gates : Gates) (preHead : String) :
    PhaseResult :=
  let pr := if d.testGate ∧ pr.status = .ok then
    runTestGate w.repr pr gates.suite (d.tests.getD []) true else pr
  let pr := (pr.enforce gates.deploy).enforceCommitPrefix (gates.commitPrefix preHead)
  if pr.status = .ok then pr.enforce (gates.docContract preHead) else pr

/-- What follows the try block of a phase, up to the record. -/
def afterTry (d : PhaseDef) (gates : Gates) (pr : PhaseResult) (l : Locals) :
    Option PhaseResult :=
  if d.kind = "test" then some ((pr.committed w gates).timed gates.timedOut)
  else l.preHead.map fun preHead =>
    (((pr.gated w d gates preHead).committed w gates).timed gates.timedOut).enforce
      (gates.tree preHead)

structure Executed where
  record : PhaseResult
  locals : Locals
  calls : List Call

/-- The execution of one phase; none where an exception leaves the runner. -/
def executePhase (d : PhaseDef) (seed : List AttemptRow) (executions : ℕ) (scene : Scene)
    (l : Locals) : Option Executed :=
  let t := tryPhase w d seed executions scene { phase := d.name, kind := d.kind } l
  t.handled.bind fun pr => (afterTry w d scene.gates pr t.locals).map fun pr =>
    ⟨pr, t.locals, t.calls⟩

end Turn

/-! ### The loop -/

/-- `RunState` of the engine. -/
inductive RunState
  | succeeded
  | awaitingApproval
  | failed
  | cancelled
  deriving DecidableEq, Repr

/-- The variables of the loop, and the fields of the result it writes. -/
structure LoopState where
  phases : List PhaseDef
  /-- The phase that is next. -/
  index : ℕ := 0
  resume : Bool := false
  completed : List String := []
  /-- The run carries on from a parent's own ledger, and records what it inherits. -/
  inherits : Bool := false
  inheritedPhases : List String := []
  records : List PhaseResult := []
  correctionBudget : String → ℕ := fun _ => 0
  executionCount : String → ℕ := fun _ => 0
  priorInvocations : String → List AttemptRow := fun _ => []
  locals : Locals := {}
  alreadyComplete : Bool := false
  /-- The phase the run stopped at, or was refused at. -/
  awaiting : Option String := none
  unresolvedCheckpoints : List String := []
  /-- The loop was left by a break, or never entered. -/
  stopped : Bool := false
  events : List Event := []

def unitSliceDef (target : PhaseDef) (unit : PlanUnit) : PhaseDef :=
  let base := match target.declaredName with
    | none | some "" => "execute"
    | some name      => name
  { declaredName := some (base ++ "__" ++ unit.id) }

def unitGateDef (unit : PlanUnit) : PhaseDef :=
  { declaredName := some ("g_" ++ unit.id ++ "_test_gate")
    kind := "test"
    tests := some unit.tests }

/-- The first generated name that is taken. -/
def collision (taken : List String) : List String → Option String
  | []            => none
  | name :: names => if name ∈ taken then some name else collision (name :: taken) names

/-- `_expand_plan_phases`, with the plan it loads; nothing where no phase declares one. -/
def expandPlanPhases (w : Settings) (phases : List PhaseDef)
    (plan : Except String (List PlanUnit)) : Except String (Option (List PhaseDef)) :=
  match phases.filter fun d => d.Expands with
  | []          => .ok none
  | [target]    =>
    if strip target.expandFromPlan = "" then
      .error "expand_from_plan must name a non-empty plan artifact path"
    else plan.bind fun units =>
      let splices := units.flatMap fun unit => [unitSliceDef target unit, unitGateDef unit]
      let reserved := (phases.filter fun d => ¬ d.Expands).map PhaseDef.name
      match collision reserved (splices.map PhaseDef.name) with
      | some name => .error ("expanded phase name " ++ w.repr (.str name) ++
          " collides with a declared or generated phase name")
      | none      => .ok (some (phases.flatMap fun d => if d.Expands then splices else [d]))
  | _ :: _ :: _ => .error ("only one phase may declare expand_from_plan — got " ++
      w.repr (.arr ((phases.filter fun d => d.Expands).map fun d =>
        .str (d.declaredName.getD "None"))))

section Loop

variable (w : Settings)

namespace LoopState

variable (s : LoopState)

def phaseRecordRow (record : PhaseResult) (attemptNumber : ℕ) (retryReason : String) : AttemptRow :=
  { attemptNumber, retryReason
    model := record.model
    status := record.status
    costUsd := record.costUsd
    tokens := record.tokens
    escalationFrom := none
    escalationTo := none }

/-- The last record of a phase, and the records without it. -/
def popRecord (name : String) : List PhaseResult → Option (PhaseResult × List PhaseResult)
  | []                => none
  | record :: records =>
    match popRecord name records with
    | some (found, rest) => some (found, record :: rest)
    | none               => if record.phase = name then some (record, records) else none

def retainAndRemovePhaseRecord (name retryReason : String) : LoopState :=
  match popRecord name s.records with
  | none                 => s
  | some (record, rest) =>
    let rows := if record.attempts = [] then
        [phaseRecordRow record ((s.priorInvocations name).length + 1) retryReason]
      else record.attempts.mapIdx fun i row => { row with attemptNumber := i + 1 }
    { s with
      records := rest
      priorInvocations := Function.update s.priorInvocations name rows
      executionCount := Function.update s.executionCount name rows.length }

/-- The rewind of a correction to the producer at `target`; the definition of the producer changes
in its prompt alone. -/
def rewind (failed : PhaseDef) (pr : PhaseResult) (target : ℕ) (producer : PhaseDef) : LoopState :=
  let invalidated := (s.phases.drop target).map PhaseDef.name
  let s := { s with
    completed := s.completed.filter (· ∉ invalidated)
    inheritedPhases := s.inheritedPhases.filter (· ∉ invalidated) }
  let evidence := if pr.error = "" then "verification failed" else pr.error
  let s := s.retainAndRemovePhaseRecord failed.name
    ("correction: " ++ String.ofList (evidence.toList.take 120))
  let s := if failed.kind = "test" then
      s.retainAndRemovePhaseRecord producer.name
        ("correction: re-run after " ++ failed.name ++ " failed verification")
    else s
  { s with index := target, events := s.events ++ [.invalidated invalidated] }

def stop : LoopState := { s with stopped := true }

/-- The bounded correction of the phase at `index`, whose record is the last one. -/
def correct (index : ℕ) (d : PhaseDef) (pr : PhaseResult) : LoopState :=
  let gateRetry := declaredGateRetry d
  if gateRetry ≠ 0 ∧ verificationFailure pr d.kind then
    let used := s.correctionBudget d.name
    if gateRetry ≤ used then s.stop
    else
      let s := { s with correctionBudget := Function.update s.correctionBudget d.name (used + 1) }
      if d.kind = "test" ∧ index = 0 then s.stop
      else
        let target := if d.kind = "test" then index - 1 else index
        match s.phases[target]? with
        | none          => s.stop
        | some producer => if producer.kind = "test" then s.stop else s.rewind d pr target producer
  else s.stop

/-- What follows the record of a phase: the checkpoint, the correction, or the next phase. -/
def conclude (index : ℕ) (d : PhaseDef) (pr : PhaseResult) : LoopState :=
  if d.kind ≠ "test" ∧ d.checkpoint ∧ pr.status = .ok then
    let s := { s with
      records := s.records ++ [{ pr with status := .awaiting }]
      awaiting := some d.name
      events := s.events ++ [Event.executed d.name .awaiting] }
    s.stop
  else
    let s := { s with
      records := s.records ++ [pr]
      events := s.events ++ [.executed d.name pr.status] }
    if pr.status = .failed ∧ w.stopOnError then s.correct index d pr else s

/-- A phase whose plan cannot be expanded is recorded as failed. -/
def refuseExpansion (d : PhaseDef) (message : String) : LoopState :=
  { s with
    records := s.records ++ [{
      phase := d.name
      kind := d.kind
      status := .failed
      error := "PLAN_EXPANSION: " ++ message }]
    index := s.index + 1
    stopped := w.stopOnError
    events := s.events ++ [.executed d.name .failed] }

def Ended : Prop := s.stopped ∨ s.phases.length ≤ s.index

instance : Decidable s.Ended := inferInstanceAs (Decidable (_ ∨ _))

/-- The loop reaches a phase and executes it. -/
def Executes (d : PhaseDef) : Prop :=
  s.stopped = false ∧ s.phases[s.index]? = some d ∧ ¬ d.Expands ∧
    ¬ (s.resume ∧ d.name ∈ s.completed)

/-- A turn of the loop; none where an exception leaves the runner. -/
def turn (scene : Scene) : Option LoopState :=
  if s.stopped then some s
  else match s.phases[s.index]? with
    | none   => some s
    | some d =>
      if d.Expands then
        match expandPlanPhases w s.phases scene.plan with
        | .error message    => some (s.refuseExpansion w d message)
        | .ok none          => some s
        | .ok (some phases) => some { s with phases }
      else if s.resume ∧ d.name ∈ s.completed then
        some { s with
          index := s.index + 1
          inheritedPhases := s.inheritedPhases ++ (if s.inherits then [d.name] else [])
          events := s.events ++ [.skipped d.name] }
      else
        (executePhase w d (s.priorInvocations d.name) (s.executionCount d.name) scene
          s.locals).map fun e =>
            { s with
              index := s.index + 1
              locals := e.locals
              events := s.events ++ e.calls.map Event.invoked : LoopState }.conclude w s.index d e.record

def ok : Bool := (s.records ≠ [] ∧ ∀ pr ∈ s.records, pr.status = .ok) ∨ s.alreadyComplete

def state : RunState :=
  if s.awaiting.isSome then .awaitingApproval
  else if s.ok then .succeeded
  else if s.records ≠ [] then .failed
  else .cancelled

end LoopState

/-- A resume: the completions it has evidence for, and the approval contracts of the checkpoints
among them, read before the loop. -/
structure Resume where
  inherits : Bool
  completed : List String
  decisions : List (String × Bool)

structure Opening where
  plan : Except String (List PlanUnit)
  resume : Option Resume

/-- The phases once the plan was tried; one that cannot be expanded yet is left to the loop. -/
def prePhases (phases : List PhaseDef) (opening : Opening) : List PhaseDef :=
  match expandPlanPhases w phases opening.plan with
  | .ok (some expanded) => expanded
  | _                   => phases

/-- The state in which the loop is entered, or which is returned at once where a checkpoint is not
approved. -/
def start (phases : List PhaseDef) (opening : Opening) : LoopState :=
  let phases := prePhases w phases opening
  match opening.resume with
  | none   => { phases }
  | some r =>
    let names := phases.map PhaseDef.name
    let completed := r.completed.filter (· ∈ names) ++
      (r.decisions.filter Prod.snd).map Prod.fst
    match r.decisions.find? fun decision => !decision.2 with
    | some (refused, _) =>
      { phases, completed
        resume := true
        inherits := r.inherits
        inheritedPhases := if r.inherits then names.filter (· ∈ completed) else []
        awaiting := some refused
        unresolvedCheckpoints := (r.decisions.filter fun decision => !decision.2).map Prod.fst
        stopped := true }
    | none              =>
      { phases, completed
        resume := true
        inherits := r.inherits
        alreadyComplete := phases ≠ [] ∧ ∀ name ∈ names, name ∈ completed }

/-- The state after some turns; none where an exception has left the runner. -/
def after (s : LoopState) (scenes : ℕ → Scene) : ℕ → Option LoopState
  | 0     => some s
  | n + 1 => (after s scenes n).bind fun s => s.turn w (scenes n)

def Returns (s : LoopState) (scenes : ℕ → Scene) (result : LoopState) : Prop :=
  ∃ n, after w s scenes n = some result ∧ result.Ended

end Loop

end AgenticDynamics.Execution
