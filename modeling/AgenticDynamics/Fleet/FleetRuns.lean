import AgenticDynamics.Library.Runs
import AgenticDynamics.Fleet.CommandLane

/-!
# The fleet, call by call

Submitters push commands and write the first records of their jobs, one consumer claims commands
and dispatches them in threads, and a sweep settles jobs that look stale. A step is one call to
Redis or to the broker. The consumer can stop between any two of its calls; one that starts again
first goes through the claims that it finds.

A sender gives every command a nonce and every submit an id of its own, so a text is pushed once,
and the thread that handles a claim is told by its text.
-/

namespace AgenticDynamics.Fleet

open Python

/-- The surroundings of the consumer: the compose services that may be shaped, the size of the pool,
and whether it only pretends. -/
structure Consumer where
  host : Runtime
  allowlist : List String
  workers : ℕ
  dryRun : Bool

section Commands

variable (consumer : Consumer)

/-- The command of a text; none stands for a text without one. -/
def commandOf (raw : String) : Option (Dict Json) :=
  match consumer.host.loads raw with
  | .ok (.obj command) => some command
  | _                  => none

/-- The job of a text; none stands for a command that carries none. -/
def jobOf (raw : String) : Option String := do
  let command ← commandOf consumer raw
  let jobId := jobIdText consumer.host command
  if isSubmit command ∧ jobId ≠ "" then some jobId else none

/-- The client can use the id of the job as the name of a field. -/
def encodable (command : Dict Json) : Bool :=
  match Dict.get? "job_id" command with
  | some (.str _)   => true
  | some (.int _)   => true
  | some (.float _) => true
  | _               => false

def maxScale : ℤ := 32

/-- `command.get(field, "")` as a text. -/
def fieldText (field : String) (command : Dict Json) : String :=
  ((Dict.get? field command).getD (.str "")).text consumer.host

def quoted (value : Json) : String := consumer.host.repr value

def countError (command : Dict Json) : List String :=
  let count := (Dict.get? "count" command).getD .null
  let refused := ["scale count " ++ quoted consumer count ++ " is not an int in [0, 32]"]
  match count with
  | .int n => if 0 ≤ n ∧ n ≤ maxScale then [] else refused
  | _      => refused

def backoffError (command : Dict Json) : List String :=
  let backoff := (Dict.get? "backoff" command).getD .null
  let refused := ["restart backoff " ++ quoted consumer backoff ++ " is not a non-negative number"]
  match backoff with
  | .null    => []
  | .int n   => if n < 0 then refused else []
  | .float x => if PyFloat.lt x (.finite 0) then refused else []
  | _        => refused

/-- `validate_fleet_command` of a command that is no submit. -/
def controlErrors (command : Dict Json) : List String :=
  let action := fieldText consumer "action" command
  if action ∉ ["drain", "restart", "scale", "submit"] then
    ["action " ++ quoted consumer (.str action) ++
      " is not one of ['drain', 'restart', 'scale', 'submit']"]
  else
    let service := fieldText consumer "service" command
    (if service ∈ consumer.allowlist then []
      else ["service " ++ quoted consumer (.str service) ++ " is not in the compose allowlist"]) ++
    (if action = "scale" then countError consumer command else []) ++
    (if action = "restart" then backoffError consumer command else [])

/-- The errors of a command; those of a submit depend on the repository and are given. -/
def commandErrors (submitErrors : List String) (command : Dict Json) : List String :=
  if isSubmit command then submitErrors else controlErrors consumer command

/-- `_job_launch_record`. -/
def launchRecord (jobId : String) (command : Dict Json) : Dict Json :=
  let field (name : String) : Json := (Dict.get? name command).getD .null
  let kept (name : String) : Dict Json :=
    if (field name).truthy then [(name, field name)] else []
  [("job_id", .str jobId), ("spec", field "spec"), ("model", field "model"),
    ("status", .str "launching"), ("ts", field "ts")] ++ kept "request_key" ++ kept "task_identity"

end Commands

/-! ### What becomes of a dispatch -/

/-- What the broker answers, or what is raised instead. -/
inductive BrokerAnswer
  | unreachable (detail : String)
  | refused (errors : List String)
  | stopped (state stderr : String)
  | ran (returncode : ℤ) (ledger runId ledgerSha256 : String)
  | crashed (exc : String)

/-- The last transition of a job, and the reason of its dead letter. -/
structure Resolution where
  status : String
  fields : Dict Json
  reason : Option String
  ended : status = "completed" ∨ status = "failed"
  status_kept : ∀ kv ∈ fields, kv.1 ≠ "status"

def Resolution.failed (reason : String) : Resolution where
  status := "failed"
  fields := [("error", .str reason)]
  reason := some reason
  ended := .inr rfl
  status_kept := by simp

/-- How `_dispatch_command` and `_dispatch_claimed` resolve a job. -/
def BrokerAnswer.resolution : BrokerAnswer → Resolution
  | unreachable detail => .failed ("launch broker unreachable: " ++ detail)
  | refused errors =>
    .failed ("; ".intercalate (if errors = [] then ["the launch broker refused the command"] else errors))
  | stopped state stderr => .failed (if stderr = "" then "broker state " ++ state else stderr)
  | crashed exc => .failed ("dispatch crashed: " ++ exc)
  | ran returncode ledger runId ledgerSha256 =>
    let fields : Dict Json :=
      [("returncode", .int returncode), ("ledger", if ledger = "" then .null else .str ledger),
        ("run_id", .str runId), ("ledger_sha256", .str ledgerSha256)]
    if returncode = 0 then ⟨"completed", fields, none, .inl rfl, by simp [fields]⟩
    else
      let reason := "compose run exited " ++ toString returncode
      ⟨"failed", fields ++ [("error", .str reason)], some reason, .inr rfl, by simp [fields]⟩

/-- A dry run resolves a job only when it crashes. -/
def BrokerAnswer.resolves (dryRun : Bool) : BrokerAnswer → Bool
  | crashed _ => true
  | _         => !dryRun

/-! ### Threads -/

/-- The next call of a thread; a write keeps the record that was read for it. -/
inductive Stage
  | claimed
  | queuedRead
  | queuedWrite (record : Dict Json)
  | runningRead
  | runningWrite (record : Dict Json)
  | broker
  | resultRead (r : Resolution)
  | resultWrite (r : Resolution) (record : Dict Json)
  | bury (reason : String)
  | release
  /-- Recovery reads the status of the job. -/
  | inspect
  | requeue

inductive Effect
  | none
  | write (jobId : String) (record : Dict Json)
  | bury (command : Json) (reason : String)
  | release
  | requeue

def Effect.apply (raw : String) : Effect → FleetStore → FleetStore
  | none, s                => s
  | write jobId record, s  => s.setJob jobId record
  | bury command reason, s => s.recordDead command reason
  | release, s             => releaseCommand raw s
  | requeue, s             => requeueClaimed raw s

/-- A call of a thread: its effect, and where the thread stands afterwards, none standing for its
end. -/
structure Move where
  effect : Effect := .none
  stage : Option Stage
  /-- The broker was called. -/
  calls : Bool := false
  /-- The dispatch has come to its end, or the job is recorded as ended. -/
  settles : Bool := false

/-- What a thread cannot decide for itself. -/
structure Choice where
  submitErrors : List String := []
  answer : BrokerAnswer := .ran 0 "" "" ""
  ts : Json := .null

section Moves

variable (consumer : Consumer) (raw : String)

/-- The last calls of a job that is resolved, or of a command without a job. -/
def resolve (r : Resolution) : Stage :=
  if (jobOf consumer raw).isSome then .resultRead r else .release

/-- `record_job_status` reads; a record that is no document raises. -/
def readJob (s : FleetStore) (command : Dict Json) (next : Dict Json → Stage) : Option Move := do
  let jobId ← jobOf consumer raw
  if encodable command then
    match JobRecord.fields (Dict.get? jobId s.jobs) with
    | .ok record => some { stage := next record }
    | .error _   => none
  else none

/-- `record_job_status` writes. -/
def writeJob (status : String) (ts : Json) (fields record : Dict Json) (next : Stage)
    (settles : Bool) : Option Move := do
  let jobId ← jobOf consumer raw
  some { effect := .write jobId (nextRecord jobId status ts fields record), stage := next, settles }

/-- The next call of the thread on a command; none stands for an exception that ends the consumer. -/
def Stage.next (choice : Choice) (s : FleetStore) (command : Dict Json) : Stage → Option Move
  | claimed =>
    let errors := commandErrors consumer choice.submitErrors command
    if errors ≠ [] then some { stage := resolve consumer raw (.failed ("; ".intercalate errors)) }
    else if isSubmit command ∧ (jobOf consumer raw).isSome then
      some { stage := if consumer.dryRun then runningRead else queuedRead }
    else some { stage := broker }
  | queuedRead => readJob consumer raw s command queuedWrite
  | queuedWrite record =>
    writeJob consumer raw "queued" choice.ts
      [("reason", .str ("accepted (fleet dispatch workers: " ++ toString consumer.workers ++ ")"))]
      record runningRead false
  | runningRead => readJob consumer raw s command runningWrite
  | runningWrite record => writeJob consumer raw "running" choice.ts [] record broker false
  | broker =>
    if choice.answer.resolves consumer.dryRun ∧ (jobOf consumer raw).isSome then
      some { stage := resultRead choice.answer.resolution, calls := true }
    else some { stage := release, calls := true, settles := true }
  | resultRead r => readJob consumer raw s command (resultWrite r)
  | resultWrite r record =>
    writeJob consumer raw r.status choice.ts r.fields record
      (match r.reason with
        | some reason => bury reason
        | none        => release) true
  | bury reason => some { effect := .bury (.obj command) reason, stage := release }
  | release => some { effect := .release, stage := none }
  | inspect =>
    match claimedStatus consumer.host command s with
    | .error _ => none
    | .ok status =>
      if status = "running" then some { stage := resolve consumer raw (.failed restartReason) }
      else if status = "completed" ∨ status = "failed" then some { stage := release }
      else some { stage := requeue }
  | requeue => some { effect := .requeue, stage := none }

/-- The next call of a thread on a text. A text that is no command is dropped, a document that is
none ends the consumer. -/
def nextMove (choice : Choice) (s : FleetStore) (stage : Stage) : Option Move :=
  match consumer.host.loads raw with
  | .ok (.obj command) => stage.next consumer raw choice s command
  | .ok _ =>
    match stage with
    | .release => some { effect := .release, stage := none }
    | _        => none
  | .error (cls, _) =>
    match stage with
    | .claimed => if cls = "JSONDecodeError" then some { stage := some .release } else none
    | .release => some { effect := .release, stage := none }
    | _        => none

/-- Where recovery begins with a claim; none stands for an exception that ends the consumer. -/
def recoveryStage : Option Stage :=
  match consumer.host.loads raw with
  | .ok (.obj command) => some (if isSubmit command then .inspect else .requeue)
  | .ok _              => some .release
  | .error (cls, _)    => if cls = "JSONDecodeError" then some .release else none

end Moves

/-! ### Steps -/

/-- The keys, the consumer and what has happened so far. -/
structure FleetState where
  store : FleetStore := {}
  /-- A consumer is running. -/
  up : Bool := false
  /-- The claims that recovery has not finished, the one at hand first. -/
  entries : List String := []
  /-- Where the thread on a text stands; a text that none handles has none. -/
  stage : String → Option Stage := fun _ => none
  pushed : List String := []
  /-- The submits whose senders have not yet written the record of the job. -/
  unwritten : List String := []
  /-- The texts whose jobs a thread has recorded as running or as ended. -/
  started : List String := []
  /-- The calls of the broker. -/
  called : List String := []
  /-- The texts whose dispatch has ended, or whose job is recorded as ended. -/
  settled : List String := []

/-- Who takes the next step: a sender, the consumer as a whole, or one of its threads. -/
inductive Event
  /-- A sender pushes; with a request key it writes the record in the same script. -/
  | push (raw : String) (keyed : Bool)
  | launch (raw : String)
  | start
  | recover
  | claim
  | advance (raw : String) (choice : Choice)
  | crash

/-- The stage of a thread that is about to record its job as running or as ended. -/
def Stage.records : Stage → Bool
  | runningWrite _  => true
  | resultWrite _ _ => true
  | _               => false

section Steps

variable (consumer : Consumer)

/-- The text is new, and so is its job: no other text carries it, and the board does not know it. -/
def FleetState.fresh (s : FleetState) (raw : String) : Prop :=
  raw ∉ s.pushed ∧ ∀ jobId ∈ jobOf consumer raw,
    (∀ other ∈ s.pushed, jobOf consumer other ≠ some jobId) ∧
      (Dict.get? jobId s.store.jobs).isNone

instance (s : FleetState) (raw : String) : Decidable (s.fresh consumer raw) :=
  inferInstanceAs (Decidable (_ ∧ _))

/-- `record_job_launch`. -/
def recordLaunch (raw : String) (store : FleetStore) : FleetStore :=
  match commandOf consumer raw, jobOf consumer raw with
  | some command, some jobId => store.setJob jobId (launchRecord jobId command)
  | _, _                     => store

/-- `_send_submit_command` up to the push, and with a request key the whole of it. -/
def FleetState.push (raw : String) (keyed : Bool) (s : FleetState) : FleetState :=
  let sent := { s with store := s.store.push raw, pushed := raw :: s.pushed }
  if keyed then { sent with store := recordLaunch consumer raw sent.store }
  else if (jobOf consumer raw).isSome then { sent with unwritten := raw :: s.unwritten }
  else sent

/-- The consumer and its threads are gone. -/
def FleetState.crash (s : FleetState) : FleetState :=
  { s with up := false, entries := [], stage := fun _ => none }

def FleetState.take (raw : String) (stage : Stage) (m : Move) (s : FleetState) : FleetState :=
  { s with
    store := m.effect.apply raw s.store
    stage := Function.update s.stage raw m.stage
    entries := if m.stage.isNone then s.entries.erase raw else s.entries
    started := if stage.records then raw :: s.started else s.started
    called := if m.calls then raw :: s.called else s.called
    settled := if m.settles then raw :: s.settled else s.settled }

/-- One step of the fleet; a step that cannot be taken changes nothing. Threads take their calls in
any order, which includes the orders that the loop and the size of the pool leave. -/
def FleetState.step (s : FleetState) : Event → FleetState
  | .push raw keyed => if s.fresh consumer raw then s.push consumer raw keyed else s
  | .launch raw =>
    if raw ∈ s.unwritten then
      { s with store := recordLaunch consumer raw s.store, unwritten := s.unwritten.erase raw }
    else s
  | .start => if s.up then s else { s with up := true, entries := s.store.processing.reverse }
  | .recover =>
    match s.entries with
    | [] => s
    | raw :: _ =>
      match s.stage raw, recoveryStage consumer raw with
      | some _, _        => s
      | none, some stage => { s with stage := Function.update s.stage raw (some stage) }
      | none, none       => s.crash
  | .claim =>
    match claimCommand s.store with
    | some (raw, store) =>
      if s.up ∧ s.entries = [] then
        { s with store, stage := Function.update s.stage raw (some .claimed) }
      else s
    | none => s
  | .advance raw choice =>
    match s.stage raw with
    | none => s
    | some stage =>
      match nextMove consumer raw choice s.store stage with
      | some m => s.take raw stage m
      | none   => s.crash
  | .crash => s.crash

end Steps

end AgenticDynamics.Fleet
