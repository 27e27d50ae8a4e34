import AgenticDynamics.Control.Tables

/-!
# The methods of the control database

The run and attempt methods of `ControlDB`, as scripts over the tables. Each follows its source
statement by statement: checks that need no statement first, then one transaction, then the
re-read that builds the returned record.
-/

namespace AgenticDynamics.Control

open Python Script

/-- A method body over a database connection. -/
abbrev DbScript := Script DbError Tables

/-! ### Helpers -/

/-- `_require`: the stripped text, which must not be empty. -/
def require (value fieldName : String) : Except DbError String :=
  let text := strip value
  if text = "" then .error (.controlField fieldName) else .ok text

/-- A state argument: an enum member or its wire string. -/
inductive StateArg (S : Type)
  | member (s : S)
  | wire (text : String)

def coerceRunState : StateArg RunState → Except DbError RunState
  | .member s  => .ok s
  | .wire text =>
    match RunState.ofValue? text with
    | some s => .ok s
    | none   => .error (.unknownRunState text)

def coerceAttemptState : StateArg AttemptState → Except DbError AttemptState
  | .member s  => .ok s
  | .wire text =>
    match AttemptState.ofValue? text with
    | some s => .ok s
    | none   => .error (.unknownAttemptState text)

/-- `given or _now()`: the clock is read only when no usable stamp was given. -/
def orNow (given : Option String) : DbScript String :=
  if orElse given "" = "" then draw else pure (orElse given "")

/-- `given or _new_id(prefix)`. -/
def orNewId (given : Option String) (kind : String) : DbScript String :=
  if orElse given "" = "" then do
    let hex ← draw
    pure (kind ++ "-" ++ hex)
  else pure (orElse given "")

/-- Read back the row just written; the code asserts that it is there. -/
def reread {α : Type} (get : Tables → Option α) : DbScript α := do
  match ← query get with
  | some row => pure row
  | none     => raise .assertion

def bumpEpoch : DbScript ℕ := do
  execute Tables.bumpControlEpoch
  query Tables.controlEpoch

/-! ### Runs -/

structure CreateRun where
  specName : String
  runId : Option String := none
  workflowRevisionId : String := ""
  candidateSha : String := ""
  model : String := ""
  state : StateArg RunState := .member .queued
  startedAt : Option String := none
  ledgerPath : String := ""
  costUsd : PyFloat := .finite 0
  reason : String := ""
  actor : String := "orchestrator"
  parentRunId : String := ""
  familyId : String := ""

/-- The family root of a new run: the one given, else the parent's, else the run itself. -/
def resolveFamily (a : CreateRun) (rid : String) : DbScript String :=
  if a.familyId ≠ "" then pure a.familyId
  else if a.parentRunId ≠ "" then do
    match ← query (Tables.getRun a.parentRunId) with
    | some parent =>
      let family := if parent.familyId = "" then parent.runId else parent.familyId
      pure (if family = "" then rid else family)
    | none => pure rid
  else pure rid

def createRun (a : CreateRun) : DbScript RunRecord := do
  requireWritable .readOnlyControlDB
  let spec ← lift (require a.specName "spec_name")
  let initial ← lift (coerceRunState a.state)
  let _ ← lift (if initial ∈ creationStates then Except.ok () else .error (.invalidCreation initial))
  let rid ← orNewId a.runId "run"
  let now ← orNow a.startedAt
  let family ← resolveFamily a rid
  let _ ← transaction .readOnlyControlDB do
    execute (Tables.insertRun
      { runId := rid, specName := spec, workflowRevisionId := a.workflowRevisionId
        candidateSha := a.candidateSha, state := initial, model := a.model, startedAt := now
        endedAt := "", ledgerPath := a.ledgerPath, costUsd := a.costUsd
        parentRunId := a.parentRunId, familyId := family })
    execute (Tables.insertTransition ⟨rid, none, initial, now, a.reason, a.actor⟩)
    bumpEpoch
  reread (Tables.getRun rid)

structure TransitionRun where
  runId : String
  newState : StateArg RunState
  reason : String := ""
  actor : String := "orchestrator"
  stamp : Option String := none
  costUsd : Option PyFloat := none
  candidateSha : Option String := none
  ledgerPath : Option String := none
  resultDigest : Option String := none
  endedAt : Option String := none

/-- The columns an accepted transition sets: a terminal one stamps `ended_at` unless told
otherwise, and an argument left out keeps the column. -/
def TransitionRun.apply (a : TransitionRun) (current : RunRecord) (target : RunState)
    (now : String) (row : RunRecord) : RunRecord :=
  { row with
    state := target
    endedAt := a.endedAt.getD (if target ∈ terminalRunStates then now else current.endedAt)
    costUsd := a.costUsd.getD current.costUsd
    candidateSha := a.candidateSha.getD current.candidateSha
    ledgerPath := a.ledgerPath.getD current.ledgerPath
    resultDigest := a.resultDigest.getD current.resultDigest }

/-- The transaction block of `transition_run`. -/
def transitionBlock (a : TransitionRun) (target : RunState) (now : String) : DbScript ℕ := do
  match ← query (Tables.getRun a.runId) with
  | none => raise (.unknownRun a.runId)
  | some current =>
    if current.isTerminal then raise (.terminalRun a.runId current.state target)
    else if target ∉ allowedTransitions current.state then
      raise (.invalidTransition a.runId current.state target)
    else do
      execute (Tables.updateRuns a.runId (a.apply current target now))
      execute (Tables.insertTransition
        ⟨a.runId, some current.state, target, now, a.reason, a.actor⟩)
      bumpEpoch

def transitionRun (a : TransitionRun) : DbScript RunRecord := do
  requireWritable .readOnlyControlDB
  let target ← lift (coerceRunState a.newState)
  let now ← orNow a.stamp
  let _ ← transaction .readOnlyControlDB (transitionBlock a target now)
  reread (Tables.getRun a.runId)

structure UpdateRun where
  runId : String
  candidateSha : Option String := none
  ledgerPath : Option String := none
  model : Option String := none
  workflowRevisionId : Option String := none
  costUsd : Option PyFloat := none

def UpdateRun.apply (a : UpdateRun) (current row : RunRecord) : RunRecord :=
  { row with
    candidateSha := a.candidateSha.getD current.candidateSha
    ledgerPath := a.ledgerPath.getD current.ledgerPath
    model := a.model.getD current.model
    workflowRevisionId := a.workflowRevisionId.getD current.workflowRevisionId
    costUsd := a.costUsd.getD current.costUsd }

def updateRun (a : UpdateRun) : DbScript RunRecord := do
  requireWritable .readOnlyControlDB
  let _ ← transaction .readOnlyControlDB do
    match ← query (Tables.getRun a.runId) with
    | none => raise (.unknownRun a.runId)
    | some current =>
      if current.isTerminal then raise (.terminalRunEdit a.runId current.state)
      else execute (Tables.updateRuns a.runId (a.apply current))
  reread (Tables.getRun a.runId)

structure RecordRunHeartbeat where
  runId : String
  actor : String := "orchestrator"
  stamp : Option String := none

def recordRunHeartbeat (a : RecordRunHeartbeat) : DbScript RunHeartbeat := do
  requireWritable .readOnlyControlDB
  match ← query (Tables.getRun a.runId) with
  | none => raise (.unknownRunHeartbeat a.runId)
  | some _ =>
    let stamp ← orNow a.stamp
    let _ ← transaction .readOnlyControlDB
      (execute (Tables.upsertHeartbeat a.runId stamp a.actor))
    reread (Tables.runHeartbeat a.runId)

/-! ### Step attempts -/

structure StartAttempt where
  runId : String
  stepId : String
  model : String := ""
  attemptNo : Option ℤ := none
  state : StateArg AttemptState := .member .running
  startedAt : Option String := none
  attemptId : Option String := none

def startAttempt (a : StartAttempt) : DbScript StepAttemptRecord := do
  requireWritable .readOnlyControlDB
  let step ← lift (require a.stepId "step_id")
  let attemptState ← lift (coerceAttemptState a.state)
  let aid ← transaction .readOnlyControlDB do
    match ← query (Tables.getRun a.runId) with
    | none => raise (.unknownRun a.runId)
    | some _ =>
      let number ← match a.attemptNo with
        | none   => query (Tables.nextAttemptNo a.runId step)
        | some n => pure n
      let aid ← orNewId a.attemptId "att"
      let startedAt ← orNow a.startedAt
      execute (Tables.insertAttempt
        { attemptId := aid, runId := a.runId, stepId := step, attemptNo := number
          model := a.model, state := attemptState, startedAt := startedAt, endedAt := ""
          tokens := 0, costUsd := .finite 0, exitCode := none, error := "" })
      let _ ← bumpEpoch
      pure aid
  reread (Tables.getAttempt aid)

structure FinishAttempt where
  attemptId : String
  state : StateArg AttemptState
  tokens : ℤ := 0
  costUsd : PyFloat := .finite 0
  exitCode : Option ℤ := none
  error : String := ""
  endedAt : Option String := none

def finishAttempt (a : FinishAttempt) : DbScript StepAttemptRecord := do
  requireWritable .readOnlyControlDB
  let final ← lift (coerceAttemptState a.state)
  let _ ← transaction .readOnlyControlDB do
    match ← query (Tables.getAttempt a.attemptId) with
    | none => raise (.unknownAttempt a.attemptId)
    | some current =>
      if current.isTerminal then raise (.finishedAttempt a.attemptId current.state)
      else do
        let endedAt ← orNow a.endedAt
        execute (Tables.updateAttempts a.attemptId fun row =>
          { row with
            state := final, endedAt := endedAt, tokens := a.tokens, costUsd := a.costUsd
            exitCode := a.exitCode, error := a.error })
        bumpEpoch
  reread (Tables.getAttempt a.attemptId)

/-! ### What the helpers preserve -/

lemma reads_orNow (given : Option String) : Reads (orNow given) := by
  simp only [orNow]
  split
  · exact reads_draw
  · exact reads_pure _

lemma reads_orNewId (given : Option String) (kind : String) : Reads (orNewId given kind) := by
  simp only [orNewId]
  split
  · exact reads_draw.bind fun _ => reads_pure _
  · exact reads_pure _

lemma reads_reread {α : Type} (get : Tables → Option α) : Reads (reread get) := by
  refine (reads_query get).bind fun row => ?_
  cases row with
  | some row => exact reads_pure row
  | none => exact reads_raise _

lemma reads_resolveFamily (a : CreateRun) (rid : String) : Reads (resolveFamily a rid) := by
  simp only [resolveFamily]
  split_ifs
  · exact reads_pure _
  · refine (reads_query _).bind fun parent => ?_
    cases parent with
    | some parent => exact reads_pure _
    | none => exact reads_pure _
  · exact reads_pure _

/-- `now` is what `given or _now()` can evaluate to. -/
def StampOf (given : Option String) (now : String) : Prop :=
  orElse given "" ≠ "" → now = orElse given ""

lemma ensures_orNow {given : Option String} {Q : String → Tables → Prop} {s : Tables}
    (h : ∀ now, StampOf given now → Q now s) : Ensures (orNow given) Q s := by
  simp only [orNow]
  split
  case isTrue hempty => exact ensures_draw fun _ => h _ fun hne => absurd hempty hne
  case isFalse => exact ensures_pure (h _ fun _ => rfl)

lemma ensures_orNewId {given : Option String} {kind : String} {Q : String → Tables → Prop}
    {s : Tables} (h : ∀ id, Q id s) : Ensures (orNewId given kind) Q s := by
  simp only [orNewId]
  split
  · exact ensures_bind (ensures_draw fun _ => ensures_pure (h _))
  · exact ensures_pure (h _)

lemma ensures_reread {α : Type} {get : Tables → Option α} {Q : α → Tables → Prop} {s : Tables}
    (h : ∀ row, get s = some row → Q row s) : Ensures (reread get) Q s := by
  refine ensures_bind (ensures_query ?_)
  cases hrow : get s with
  | some row => exact ensures_pure (h row hrow)
  | none => exact ensures_raise _

lemma ensures_updateRuns {runId : String} {f : RunRecord → RunRecord} {Q : Unit → Tables → Prop}
    {s : Tables}
    (h : Q () { s with runs := s.runs.map fun r => if r.runId = runId then f r else r }) :
    Ensures (execute (Tables.updateRuns runId f)) Q s := by
  refine ensures_execute fun t ht => ?_
  simp only [Tables.updateRuns] at ht
  split at ht <;> cases ht
  exact h

lemma ensures_insertTransition {row : StateTransition} {Q : Unit → Tables → Prop} {s : Tables}
    (h : Q () { s with runTransitions := s.runTransitions ++ [row] }) :
    Ensures (execute (Tables.insertTransition row)) Q s := by
  refine ensures_execute fun t ht => ?_
  simp only [Tables.insertTransition] at ht
  split at ht <;> cases ht
  exact h

lemma ensures_bumpEpoch {Q : ℕ → Tables → Prop} {s : Tables}
    (h : Q (s.controlEpoch + 1) { s with controlEpoch := s.controlEpoch + 1 }) :
    Ensures bumpEpoch Q s := by
  refine ensures_bind (ensures_execute fun t ht => ensures_query ?_)
  cases ht
  exact h

end AgenticDynamics.Control
