import AgenticDynamics.Control.TerminalWrite

/-!
# The outbox publisher

`OutboxPublisher.drain` hands every eligible pending row to the knowledge stream and records what
became of it. The stream, the checkpoint store, the artifact directory and the clock are an
environment that may refuse any call; the database itself does not fail here.

The world keeps a log of what happened to each event id, so that "delivered only after the
acknowledgement" is a statement about the order of its entries.
-/

namespace AgenticDynamics.Control

open Python

/-! ### Retry policy -/

/-- A policy that passed its own construction checks. -/
structure BackoffPolicy where
  maxAttempts : ℕ := 5
  baseSeconds : PyFloat := .finite 2
  factor : PyFloat := .finite 3
  maxSeconds : PyFloat := .finite 900
  one_le_maxAttempts : 1 ≤ maxAttempts := by decide
  delays_nonneg : baseSeconds.lt (.finite 0) = false ∧ maxSeconds.lt (.finite 0) = false := by decide
  one_le_factor : factor.lt (.finite 1) = false := by decide

namespace BackoffPolicy

/-- Seconds to wait after `attempts` failed deliveries; the power of a large factor overflows. -/
def delayFor (policy : BackoffPolicy) (attempts : ℕ) : Except DbError PyFloat :=
  match policy.factor.pow (attempts - 1) with
  | none => .error (.external "OverflowError" "(34, 'Numerical result out of range')")
  | some power => .ok ((policy.baseSeconds.mul power).min policy.maxSeconds)

/-- `now + timedelta(seconds=delay)`, where both the delta and the sum have a range. -/
def after (now : Instant) : PyFloat → Except DbError Instant
  | .nan => .error (.external "ValueError" "cannot convert float NaN to integer")
  | .inf _ => .error (.external "OverflowError" "cannot convert float infinity to integer")
  | .finite seconds =>
    let delta := roundHalfEven (seconds * 1000000)
    let days := delta / 86400000000
    if 999999999 < |days| then
      .error (.external "OverflowError"
        ("days=" ++ toString days ++ "; must have magnitude <= 999999999"))
    else if now + delta < 0 ∨ (maxInstant : ℤ) < now + delta then
      .error (.external "OverflowError" "date value out of range")
    else .ok (now + delta).toNat

/-- The stamp of the earliest legal next attempt. -/
def nextRetryAt (policy : BackoffPolicy) (attempts : ℕ) (now : Instant) : Except DbError String := do
  let delay ← policy.delayFor attempts
  let moment ← after now delay
  pure (isoZ moment)

def isExhausted (policy : BackoffPolicy) (attempts : ℕ) : Bool := policy.maxAttempts ≤ attempts

end BackoffPolicy

/-! ### Payloads -/

def payloadVersion : String := "control-outbox-payload/v1"

def kindKnowledgeEvent : String := "knowledge_event"

def knownKinds : List String := [kindKnowledgeEvent]

def payloadKeys : List String := ["knowledge_id", "source_type", "event", "record"]

/-- `row.payload`: an empty column is `None`. -/
def payloadOf (rt : Runtime) (row : OutboxRecord) : Except (String × String) Json :=
  if row.payloadJson = "" then .ok .null else rt.loads row.payloadJson

/-- `kind not in KNOWN_KINDS`, where a value without a hash raises instead. -/
def checkKind (rt : Runtime) (kind : Json) : Except DbError Unit :=
  if !kind.hashable then .error (.external "TypeError" ("unhashable type: '" ++ kind.typeName ++ "'"))
  else
    let known : Bool := match kind with
      | .str s => s ∈ knownKinds
      | _      => false
    if known then .ok ()
    else .error (.malformedPayload ("kind " ++ rt.repr kind ++
      " is not deliverable by this publisher (known: " ++ ", ".intercalate knownKinds ++ ")"))

/-- `payload.get("payload_version") != PAYLOAD_VERSION`. -/
def checkVersion (rt : Runtime) (version : Json) : Except DbError Unit :=
  let matching : Bool := match version with
    | .str s => s = payloadVersion
    | _      => false
  if matching then .ok ()
  else .error (.malformedPayload ("payload_version " ++ rt.repr version ++ " is not " ++
    rt.repr (.str payloadVersion) ++
    " — refusing to guess at a shape this publisher does not understand"))

def parse (rt : Runtime) (row : OutboxRecord) : Except DbError (Dict Json) :=
  match payloadOf rt row with
  | .error (_, text) => .error (.malformedPayload ("payload is not valid JSON (" ++ text ++ ")"))
  | .ok (.obj payload) => do
    checkVersion rt ((Dict.get? "payload_version" payload).getD .null)
    checkKind rt ((Dict.get? "kind" payload).getD .null)
    match payloadKeys.find? fun key => (Dict.get? key payload).isNone with
    | some key =>
      .error (.malformedPayload ("payload is missing required key " ++ rt.repr (.str key)))
    | none =>
      .ok (Dict.setDefault "registry_lines" (.arr [])
        (Dict.setDefault "checkpoint_value" (.str "")
          (Dict.setDefault "checkpoint" (.bool false) payload)))
  | .ok payload =>
    .error (.malformedPayload ("payload is " ++ payload.typeName ++ ", expected an object"))

/-- `d[key]`; the error is the text of the exception. -/
def subscript (rt : Runtime) (key : String) : Json → Except String Json
  | .obj fields =>
    match Dict.get? key fields with
    | some value => .ok value
    | none       => .error (rt.repr (.str key))
  | .str _ => .error "string indices must be integers"
  | .arr _ => .error "list indices must be integers or slices, not str"
  | value  => .error ("'" ++ value.typeName ++ "' object is not subscriptable")

/-- `_coerce_authority`: a rank from 1 to 5, or the name of one in any case. -/
def coerceAuthority (rt : Runtime) (value : Json) : Except String Unit :=
  let named (text : String) : Except String Unit :=
    if rt.upper text ∈ ["ADVISORY", "DERIVED", "MEASURED", "SOURCE", "POLICY"] then .ok ()
    else .error (rt.repr (.str (rt.upper text)))
  match value with
  | .int n  => if 1 ≤ n ∧ n ≤ 5 then .ok () else .error (rt.repr value ++ " is not a valid Authority")
  | .bool b => if b then .ok () else .error (rt.repr value ++ " is not a valid Authority")
  | .str s  => named s
  | value   => named (rt.repr value)

/-- `list(value or [])` is defined. -/
def iterable (value : Json) : Except String Unit :=
  if !value.truthy then .ok ()
  else match value with
    | .int _   => .error "'int' object is not iterable"
    | .bool _  => .error "'bool' object is not iterable"
    | .float _ => .error "'float' object is not iterable"
    | _        => .ok ()

/-- `KnowledgeRecord.from_dict`, as far as it can refuse its argument. -/
def recordFromDict (rt : Runtime) (d : Json) : Except String Unit := do
  for key in ["knowledge_id", "entity_id", "source_uri", "source_type", "logical_locator",
      "repository_id", "branch", "worktree_id", "commit_sha", "content_hash",
      "extractor_version", "embedding_version"] do
    let _ ← subscript rt key d
  coerceAuthority rt (← subscript rt "authority" d)
  for key in ["valid_from", "observed_at", "indexed_at", "acl_scope", "contains_sensitive_data",
      "text", "token_count", "language"] do
    let _ ← subscript rt key d
  iterable ((subscript rt "symbols" d).toOption.getD .null)
  for key in ["outcome_id", "evidence_class"] do
    let _ ← subscript rt key d
  iterable ((subscript rt "evidence_ids" d).toOption.getD .null)

/-- `KnowledgeEvent.from_dict`, as far as it can refuse its argument. -/
def eventFromDict (rt : Runtime) (d : Json) : Except String Unit := do
  for key in ["knowledge_id", "entity_id", "operation", "source_uri", "source_revision",
      "content_hash", "occurred_at", "schema_version"] do
    let _ ← subscript rt key d

/-- `_rebuild`: any refusal is a malformed payload. -/
def rebuild (rt : Runtime) (payload : Dict Json) : Except DbError Unit :=
  let refusal : Except String Unit := do
    recordFromDict rt ((payload.get? "record").getD .null)
    eventFromDict rt ((payload.get? "event").getD .null)
  match refusal with
  | .ok _       => .ok ()
  | .error text =>
    .error (.malformedPayload ("cannot rebuild record/event (" ++ text ++ ")"))

/-! ### One row -/

/-- The surroundings of one drain: every call it makes outside the database, by event id. -/
structure Surroundings where
  /-- The error of `connect`, when it raises. -/
  connectError : Option (String × String) := none
  /-- The clock at the start of the drain. -/
  now : Instant
  /-- The clock when a failure of the row is recorded. -/
  failedAt : String → Instant
  /-- The clock of the database when the row is marked. -/
  markedAt : String → String
  /-- Whether the checkpoint store holds the row's knowledge id. -/
  checkpointed : String → Except (String × String) Bool
  writeArtifact : String → Except (String × String) Unit
  publish : String → Except (String × String) String

inductive Entry
  | handed (eventId : String)
  | acked (eventId : String)
  | found (eventId : String)
  | delivered (eventId : String)
  deriving DecidableEq

/-- The database and the log of the publisher's dealings. -/
structure World where
  tables : Tables
  log : List Entry := []

def World.note (w : World) (e : Entry) : World := { w with log := w.log ++ [e] }

/-- The columns `_update_outbox` sets with `bump_attempts`; an argument left out keeps its column. -/
def remark (current : OutboxRecord) (status : OutboxStatus)
    (nextRetryAt deliveredAt lastError : Option String) (row : OutboxRecord) : OutboxRecord :=
  { row with
    status := status
    attempts := current.attempts + 1
    nextRetryAt := nextRetryAt.getD current.nextRetryAt
    deliveredAt := deliveredAt.getD current.deliveredAt
    lastError := lastError.getD current.lastError }

/-- `_update_outbox`: delivered is final. -/
def updateOutbox (eventId : String) (status : OutboxStatus)
    (nextRetryAt deliveredAt lastError : Option String) (db : Tables) : Except DbError Tables :=
  match db.getOutboxEvent eventId with
  | none => .error (.unknownEvent eventId)
  | some current =>
    if current.status = .delivered then .error (.deliveredEvent eventId)
    else db.updateOutbox eventId (remark current status nextRetryAt deliveredAt lastError)

def markOutboxDelivered (eventId deliveredAt : String) : Tables → Except DbError Tables :=
  updateOutbox eventId .delivered none (some deliveredAt) none

def markOutboxRetry (eventId nextRetryAt error : String) : Tables → Except DbError Tables :=
  updateOutbox eventId .pending (some nextRetryAt) none (some error)

def markOutboxDead (eventId error : String) : Tables → Except DbError Tables :=
  updateOutbox eventId .dead none none (some error)

/-- The labels a handled row is counted under. -/
inductive Outcome
  | delivered
  | skipped
  | retried
  | dead
  deriving DecidableEq

/-- Mark a row; the outcome is logged once the database took the mark. -/
def World.mark (w : World) (mark : Tables → Except DbError Tables) (entries : List Entry)
    (outcome : Outcome) : Except DbError Outcome × World :=
  match mark w.tables with
  | .error e   => (.error e, w)
  | .ok tables => (.ok outcome, { tables := tables, log := w.log ++ entries })

def external (e : String × String) : DbError := .external e.1 e.2

/-- `_already_checkpointed`, asked only when the payload wants a checkpoint. -/
def lookUp (env : Surroundings) (row : OutboxRecord) (payload : Dict Json) : Except DbError Bool :=
  if ((payload.get? "checkpoint").getD .null).truthy then
    (env.checkpointed row.eventId).mapError external
  else .ok false

/-- What has to succeed before the event may be handed to the stream. -/
def prepare (rt : Runtime) (env : Surroundings) (row : OutboxRecord) (payload : Dict Json) :
    Except DbError Unit := do
  rebuild rt payload
  (env.writeArtifact row.eventId).mapError external

/-- `_attempt`: parse, checkpoint, artifact, publish, acknowledgement, mark. The bookkeeping between
the acknowledgement and the mark swallows its own failures. -/
def attempt (rt : Runtime) (env : Surroundings) (row : OutboxRecord) (w : World) :
    Except DbError Outcome × World :=
  match parse rt row with
  | .error e => (.error e, w)
  | .ok payload =>
    match lookUp env row payload with
    | .error e => (.error e, w)
    | .ok true =>
      (w.note (.found row.eventId)).mark
        (markOutboxDelivered row.eventId (env.markedAt row.eventId)) [.delivered row.eventId]
        .skipped
    | .ok false =>
      match prepare rt env row payload with
      | .error e => (.error e, w)
      | .ok () =>
        match env.publish row.eventId with
        | .error e => (.error (external e), w.note (.handed row.eventId))
        | .ok _ =>
          ((w.note (.handed row.eventId)).note (.acked row.eventId)).mark
            (markOutboxDelivered row.eventId (env.markedAt row.eventId))
            [.delivered row.eventId] .delivered

/-- `_record_failure`: charge one attempt, and retry or give up. -/
def recordFailure (rt : Runtime) (policy : BackoffPolicy) (env : Surroundings)
    (row : OutboxRecord) (exc : DbError) (w : World) : Except DbError Outcome × World :=
  let error := exc.typeName ++ ": " ++ exc.message fun s => rt.repr (.str s)
  if policy.isExhausted (row.attempts + 1) then w.mark (markOutboxDead row.eventId error) [] .dead
  else
    match policy.nextRetryAt (row.attempts + 1) (env.failedAt row.eventId) with
    | .error e   => (.error e, w)
    | .ok nextAt => w.mark (markOutboxRetry row.eventId nextAt error) [] .retried

def deliverRow (rt : Runtime) (policy : BackoffPolicy) (env : Surroundings) (row : OutboxRecord)
    (w : World) : Except DbError Outcome × World :=
  match attempt rt env row w with
  | (.ok outcome, w')                     => (.ok outcome, w')
  | (.error (.malformedPayload text), w') =>
    w'.mark (markOutboxDead row.eventId ("malformed payload: " ++ text)) [] .dead
  | (.error exc, w')                      => recordFailure rt policy env row exc w'

/-! ### The drain -/

structure DrainReport where
  delivered : ℕ := 0
  skipped : ℕ := 0
  retried : ℕ := 0
  dead : ℕ := 0
  streamError : String := ""
  deriving DecidableEq

namespace DrainReport

def examined (r : DrainReport) : ℕ := r.delivered + r.skipped + r.retried + r.dead

def count (r : DrainReport) : Outcome → DrainReport
  | .delivered => { r with delivered := r.delivered + 1 }
  | .skipped   => { r with skipped := r.skipped + 1 }
  | .retried   => { r with retried := r.retried + 1 }
  | .dead      => { r with dead := r.dead + 1 }

end DrainReport

/-- `LIMIT ?`; a negative limit is no limit. -/
def limited {α : Type} (limit : Option ℤ) (rows : List α) : List α :=
  match limit with
  | none   => rows
  | some n => if n < 0 then rows else rows.take n.toNat

lemma limited_sublist {α : Type} (limit : Option ℤ) (rows : List α) :
    (limited limit rows).Sublist rows := by
  cases limit with
  | none => exact List.Sublist.refl _
  | some n =>
    simp only [limited]
    split
    · exact List.Sublist.refl _
    · exact List.take_sublist _ _

def isDue (now : String) (row : OutboxRecord) : Bool :=
  row.status = .pending ∧ row.nextRetryAt ≤ now

/-- `ORDER BY created_at ASC, event_id ASC`. -/
def createdBefore (a b : OutboxRecord) : Bool :=
  a.createdAt < b.createdAt ∨ (a.createdAt = b.createdAt ∧ a.eventId ≤ b.eventId)

/-- `pending_outbox_events`: the due rows, oldest first. -/
def pendingOutboxEvents (now : String) (limit : Option ℤ) (db : Tables) : List OutboxRecord :=
  limited limit ((db.outbox.filter (isDue now)).mergeSort createdBefore)

/-- The loop over the rows; an exception that leaves a row leaves the loop. -/
def drainRows (rt : Runtime) (policy : BackoffPolicy) (env : Surroundings) :
    List OutboxRecord → DrainReport → World → Except DbError DrainReport × World
  | [], report, w => (.ok report, w)
  | row :: rows, report, w =>
    match deliverRow rt policy env row w with
    | (.error e, w')    => (.error e, w')
    | (.ok outcome, w') => drainRows rt policy env rows (report.count outcome) w'

def drain (rt : Runtime) (policy : BackoffPolicy) (env : Surroundings) (limit : Option ℤ)
    (w : World) : Except DbError DrainReport × World :=
  match env.connectError with
  | some (typeName, text) => (.ok { streamError := typeName ++ ": " ++ text }, w)
  | none =>
    drainRows rt policy env (pendingOutboxEvents (isoZ env.now) limit w.tables) {} w

end AgenticDynamics.Control
