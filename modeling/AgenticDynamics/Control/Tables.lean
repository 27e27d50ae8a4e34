import AgenticDynamics.Library.Python
import AgenticDynamics.Library.Script
import AgenticDynamics.Control.RunState

/-!
# The tables of the control database

The rows the control plane stores, the statements it sends, and what the schema refuses: primary
keys, the unique attempt index, foreign keys, and the triggers that make terminal rows immutable.
A table is the list of its rows in insertion order, so the position of a row in
`run_transitions` is its `transition_id`.
-/

namespace AgenticDynamics.Control

open Python

/-! ### Errors -/

/-- What a method of the control database or of the outbox publisher can raise. Their own refusals
come first, each with the data its message quotes; the rest come from the layers below. -/
inductive DbError
  | readOnlyControlDB
  | unknownRunState (value : String)
  | unknownAttemptState (value : String)
  | controlField (fieldName : String)
  | invalidCreation (initial : RunState)
  | unknownRun (runId : String)
  | unknownRunHeartbeat (runId : String)
  | terminalRun (runId : String) (current target : RunState)
  | terminalRunEdit (runId : String) (current : RunState)
  | invalidTransition (runId : String) (current target : RunState)
  | unknownAttempt (attemptId : String)
  | finishedAttempt (attemptId : String) (current : AttemptState)
  | unknownEvent (eventId : String)
  | deliveredEvent (eventId : String)
  | malformedPayload (message : String)
  | integrity (message : String)
  | encoding (message : String)
  | external (typeName message : String)
  | assertion
  deriving DecidableEq

/-- The sorted wire forms of a set of run states, as the refusal of an illegal edge lists them. -/
def legalList (states : Finset RunState) : String :=
  ", ".intercalate (((RunState.members.filter (· ∈ states)).map RunState.value).mergeSort (· ≤ ·))

def DbError.typeName : DbError → String
  | readOnlyControlDB     => "ReadOnlyControlDBError"
  | unknownRunState _     => "UnknownStateError"
  | unknownAttemptState _ => "UnknownStateError"
  | controlField _        => "ControlFieldError"
  | invalidCreation _     => "InvalidTransitionError"
  | unknownRun _          => "UnknownRunError"
  | unknownRunHeartbeat _ => "UnknownRunError"
  | terminalRun _ _ _     => "TerminalStateError"
  | terminalRunEdit _ _   => "TerminalStateError"
  | invalidTransition _ _ _ => "InvalidTransitionError"
  | unknownAttempt _      => "ControlDBError"
  | finishedAttempt _ _   => "TerminalStateError"
  | unknownEvent _        => "ControlDBError"
  | deliveredEvent _      => "TerminalStateError"
  | malformedPayload _    => "MalformedPayloadError"
  | integrity _           => "IntegrityError"
  | encoding _            => "TypeError"
  | external typeName _   => typeName
  | assertion             => "AssertionError"

/-- The text of an error; `repr` is the built-in of that name on strings. -/
def DbError.message (repr : String → String) : DbError → String
  | readOnlyControlDB =>
    "control_db: this handle is read-only — the orchestrator is the only writer"
  | unknownRunState value =>
    "control_db: " ++ repr value ++ " is not a run state — the vocabulary is exactly: " ++
      ", ".intercalate (RunState.members.map RunState.value)
  | unknownAttemptState value =>
    "control_db: " ++ repr value ++ " is not an attempt state — the vocabulary is: " ++
      ", ".intercalate (AttemptState.members.map AttemptState.value)
  | controlField fieldName =>
    "control_db: " ++ fieldName ++ " is required and must be non-empty"
  | invalidCreation initial =>
    "control_db: a run may only be created in 'queued' or 'running', not " ++ repr initial.value ++
      " — every other state must be reached by a recorded transition"
  | unknownRun runId => "control_db: no run " ++ repr runId
  | unknownRunHeartbeat runId =>
    "control_db: no run " ++ repr runId ++ " — cannot record a heartbeat"
  | terminalRun runId current target =>
    "control_db: run " ++ runId ++ " is terminal (" ++ current.value ++
      ") — terminal states are immutable, refusing transition to " ++ target.value
  | terminalRunEdit runId current =>
    "control_db: run " ++ runId ++ " is terminal (" ++ current.value ++
      ") — its record can no longer be edited"
  | invalidTransition runId current target =>
    let legal := legalList (allowedTransitions current)
    "control_db: " ++ current.value ++ " → " ++ target.value ++
      " is not a legal transition for run " ++ runId ++ " (legal: " ++
      (if legal = "" then "none — terminal" else legal) ++ ")"
  | unknownAttempt attemptId => "control_db: no attempt " ++ repr attemptId
  | finishedAttempt attemptId current =>
    "control_db: attempt " ++ attemptId ++ " already finished (" ++ current.value ++
      ") — record a new attempt instead of editing this one"
  | unknownEvent eventId => "control_db: no outbox event " ++ repr eventId
  | deliveredEvent eventId => "control_db: outbox event " ++ eventId ++ " is already delivered"
  | malformedPayload message => message
  | integrity message => message
  | encoding message => message
  | external _ message => message
  | assertion => ""

/-! ### Rows -/

structure RunRecord where
  runId : String
  specName : String
  workflowRevisionId : String
  candidateSha : String
  state : RunState
  model : String
  startedAt : String
  endedAt : String
  ledgerPath : String
  costUsd : PyFloat
  resultDigest : String := ""
  parentRunId : String := ""
  familyId : String := ""
  deriving DecidableEq

def RunRecord.isTerminal (r : RunRecord) : Bool := r.state ∈ terminalRunStates

structure RunHeartbeat where
  runId : String
  lastSeenAt : String
  beatCount : ℕ
  actor : String
  deriving DecidableEq

structure StateTransition where
  runId : String
  fromState : Option RunState
  toState : RunState
  stamp : String
  reason : String
  actor : String
  deriving DecidableEq

structure StepAttemptRecord where
  attemptId : String
  runId : String
  stepId : String
  attemptNo : ℤ
  model : String
  state : AttemptState
  startedAt : String
  endedAt : String
  tokens : ℤ
  costUsd : PyFloat
  exitCode : Option ℤ
  error : String
  deriving DecidableEq

def StepAttemptRecord.isTerminal (a : StepAttemptRecord) : Bool := a.state ∈ terminalAttemptStates

inductive OutboxStatus
  | pending
  | delivered
  | dead
  deriving DecidableEq, Repr

structure OutboxRecord where
  eventId : String
  runId : String
  payloadJson : String
  status : OutboxStatus
  attempts : ℕ
  nextRetryAt : String
  createdAt : String
  deliveredAt : String := ""
  lastError : String := ""
  deriving DecidableEq

/-- The database: the epoch kept in `control_meta`, and the tables the modelled methods use. -/
structure Tables where
  controlEpoch : ℕ := 0
  runs : List RunRecord := []
  runHeartbeats : List RunHeartbeat := []
  runTransitions : List StateTransition := []
  stepAttempts : List StepAttemptRecord := []
  outbox : List OutboxRecord := []
  deriving DecidableEq

namespace Tables

/-- A migrated database before the first call. -/
def empty : Tables := {}

/-! ### Reads -/

def getRun (runId : String) (db : Tables) : Option RunRecord :=
  db.runs.find? fun r => r.runId = runId

def runHeartbeat (runId : String) (db : Tables) : Option RunHeartbeat :=
  db.runHeartbeats.find? fun h => h.runId = runId

def getAttempt (attemptId : String) (db : Tables) : Option StepAttemptRecord :=
  db.stepAttempts.find? fun a => a.attemptId = attemptId

def getOutboxEvent (eventId : String) (db : Tables) : Option OutboxRecord :=
  db.outbox.find? fun e => e.eventId = eventId

def transitions (runId : String) (db : Tables) : List StateTransition :=
  db.runTransitions.filter fun t => t.runId = runId

/-- One more than the greatest recorded attempt number of the step. -/
def nextAttemptNo (runId stepId : String) (db : Tables) : ℤ :=
  ((db.stepAttempts.filter fun a => a.runId = runId ∧ a.stepId = stepId).map
    StepAttemptRecord.attemptNo).foldr max 0 + 1

/-! ### Statements -/

/-- The refusal of a row whose `run_id` names no run. -/
def foreignKeyFailed : DbError := .integrity "FOREIGN KEY constraint failed"

def insertRun (r : RunRecord) (db : Tables) : Except DbError Tables :=
  if (db.getRun r.runId).isSome then .error (.integrity "UNIQUE constraint failed: runs.run_id")
  else .ok { db with runs := db.runs ++ [r] }

def insertTransition (t : StateTransition) (db : Tables) : Except DbError Tables :=
  if (db.getRun t.runId).isNone then .error foreignKeyFailed
  else .ok { db with runTransitions := db.runTransitions ++ [t] }

/-- `UPDATE runs … WHERE run_id = ?`, behind the `runs_terminal_immutable` trigger. -/
def updateRuns (runId : String) (f : RunRecord → RunRecord) (db : Tables) :
    Except DbError Tables :=
  if db.runs.any fun r => r.runId = runId ∧ r.isTerminal then
    .error (.integrity "control_db: run is terminal — terminal runs are immutable")
  else .ok { db with runs := db.runs.map fun r => if r.runId = runId then f r else r }

def bumpControlEpoch (db : Tables) : Except DbError Tables :=
  .ok { db with controlEpoch := db.controlEpoch + 1 }

/-- `INSERT … ON CONFLICT(run_id) DO UPDATE`. -/
def upsertHeartbeat (runId stamp actor : String) (db : Tables) : Except DbError Tables :=
  if (db.getRun runId).isNone then .error foreignKeyFailed
  else if (db.runHeartbeat runId).isSome then
    .ok { db with runHeartbeats := db.runHeartbeats.map fun h =>
      if h.runId = runId then
        { h with lastSeenAt := stamp, beatCount := h.beatCount + 1, actor := actor }
      else h }
  else .ok { db with runHeartbeats := db.runHeartbeats ++ [⟨runId, stamp, 1, actor⟩] }

def insertAttempt (a : StepAttemptRecord) (db : Tables) : Except DbError Tables :=
  if (db.getAttempt a.attemptId).isSome then
    .error (.integrity "UNIQUE constraint failed: step_attempts.attempt_id")
  else if db.stepAttempts.any fun b =>
      b.runId = a.runId ∧ b.stepId = a.stepId ∧ b.attemptNo = a.attemptNo then
    .error (.integrity ("UNIQUE constraint failed: step_attempts.run_id, " ++
      "step_attempts.step_id, step_attempts.attempt_no"))
  else if (db.getRun a.runId).isNone then .error foreignKeyFailed
  else .ok { db with stepAttempts := db.stepAttempts ++ [a] }

/-- `UPDATE step_attempts … WHERE attempt_id = ?`, behind `step_attempts_terminal_immutable`. -/
def updateAttempts (attemptId : String) (f : StepAttemptRecord → StepAttemptRecord)
    (db : Tables) : Except DbError Tables :=
  if db.stepAttempts.any fun a => a.attemptId = attemptId ∧ a.isTerminal then
    .error (.integrity
      "control_db: attempt already finished — finished attempts are immutable")
  else .ok { db with stepAttempts := db.stepAttempts.map fun a =>
    if a.attemptId = attemptId then f a else a }

def insertOutbox (e : OutboxRecord) (db : Tables) : Except DbError Tables :=
  if (db.getOutboxEvent e.eventId).isSome then
    .error (.integrity "UNIQUE constraint failed: outbox.event_id")
  else if (db.getRun e.runId).isNone then .error foreignKeyFailed
  else .ok { db with outbox := db.outbox ++ [e] }

/-- `UPDATE outbox … WHERE event_id = ?`; this table has no trigger. -/
def updateOutbox (eventId : String) (f : OutboxRecord → OutboxRecord) (db : Tables) :
    Except DbError Tables :=
  .ok { db with outbox := db.outbox.map fun e => if e.eventId = eventId then f e else e }

end Tables

end AgenticDynamics.Control
