import AgenticDynamics.Library.Python
import AgenticDynamics.Library.ConsumerGroups

/-!
# The knowledge stream

Pointer events travel through one stream that four consumer groups read. A consumer claims what
a group left pending for too long, reads what is new, and handles the entries one by one: it
acknowledges an entry once its handler returned, leaves it pending when the attempt raised, and
gives up on it when it was delivered too often.

An exception is given by its `repr`. Entry ids are of any linear order; what happens to a message
after it was acknowledged and the watermark of the projection are left out.
-/

namespace AgenticDynamics.Knowledge

open Python ConsumerGroups

/-! ### Pointer events -/

structure KnowledgeEvent where
  knowledgeId : String
  entityId : String
  operation : String
  sourceUri : String
  sourceRevision : String
  contentHash : String
  occurredAt : String
  schemaVersion : String
  eventId : String := ""
  causes : String := ""
  reason : String := ""
  observedAt : String := ""
deriving DecidableEq

abbrev Fields := Dict String

def KnowledgeEvent.toDict (event : KnowledgeEvent) : Fields :=
  [("knowledge_id", event.knowledgeId), ("entity_id", event.entityId),
    ("operation", event.operation), ("source_uri", event.sourceUri),
    ("source_revision", event.sourceRevision), ("content_hash", event.contentHash),
    ("occurred_at", event.occurredAt), ("schema_version", event.schemaVersion),
    ("event_id", event.eventId), ("causes", event.causes), ("reason", event.reason),
    ("observed_at", event.observedAt)]

section Decode

variable (rt : Runtime)

def quote (s : String) : String := rt.repr (.str s)

def valueError (text : String) : String := "ValueError(" ++ quote rt text ++ ")"

def keyError (key : String) : String := "KeyError(" ++ quote rt key ++ ")"

/-- `d[key]`. -/
def item (d : Fields) (key : String) : Except String String :=
  (Dict.get? key d).elim (.error (keyError rt key)) .ok

def KnowledgeEvent.fromDict (d : Fields) : Except String KnowledgeEvent := do
  let knowledgeId ← item rt d "knowledge_id"
  let entityId ← item rt d "entity_id"
  let operation ← item rt d "operation"
  let sourceUri ← item rt d "source_uri"
  let sourceRevision ← item rt d "source_revision"
  let contentHash ← item rt d "content_hash"
  let occurredAt ← item rt d "occurred_at"
  let schemaVersion ← item rt d "schema_version"
  return {
    knowledgeId, entityId, operation, sourceUri, sourceRevision, contentHash, occurredAt
    schemaVersion
    eventId := (Dict.get? "event_id" d).getD ""
    causes := (Dict.get? "causes" d).getD ""
    reason := (Dict.get? "reason" d).getD ""
    observedAt := (Dict.get? "observed_at" d).getD "" }

def decodeEvent (data : Fields) : Except String KnowledgeEvent :=
  let schema := (Dict.get? "schema_version" data).getD ""
  if schema ∉ ["kb/v1", ""] then .error (valueError rt ("unknown schema_version " ++ quote rt schema))
  else KnowledgeEvent.fromDict rt data

/-- `decode_event` raises on the fields. -/
def Refused (data : Fields) : Prop := ∃ exc, decodeEvent rt data = .error exc

instance (data : Fields) : Decidable (Refused rt data) :=
  match h : decodeEvent rt data with
  | .error exc => .isTrue ⟨exc, h⟩
  | .ok event  => .isFalse fun ⟨exc, hexc⟩ => by simp [h] at hexc

lemma not_refused {data : Fields} :
    ¬ Refused rt data ↔ ∃ event, decodeEvent rt data = .ok event := by
  cases h : decodeEvent rt data <;> simp [Refused, h]

end Decode

/-! ### The streams -/

/-- `LEASE_TIMEOUT_MS`, `MAX_RETRIES` and `CLAIM_BATCH`. -/
def leaseTimeoutMs : ℕ := 60000
def maxRetries : ℤ := 3
def claimBatch : ℕ := 100

structure StreamEntry (ι : Type) where
  entryId : ι
  event : KnowledgeEvent

/-- An entry of the dead-letter stream: the event's fields with the reason in place of its own. -/
structure DeadLetter (ι : Type) where
  fields : Fields
  sourceEntryId : ι
  deadLetteredAt : String
deriving DecidableEq

/-- The change stream as one group sees it, and the dead-letter stream. -/
structure Streams (ι : Type) [LinearOrder ι] where
  group : Group ι Fields
  deadLetters : List (DeadLetter ι) := []

section Operations

variable {ι β ρ : Type} [LinearOrder ι] (rt : Runtime)

/-- The parsed entries of a reply; the first refused one raises. -/
def parsed (messages : List (ι × Fields)) : Except String (List (StreamEntry ι)) :=
  messages.mapM fun m => (decodeEvent rt m.2).map (StreamEntry.mk m.1)

def readEvents (consumer : String) (now count : ℕ) (db : Streams ι) :
    Except String (List (StreamEntry ι)) × Streams ι :=
  let (messages, group) := db.group.xreadgroup consumer now count
  (parsed rt messages, { db with group })

def acknowledge (entryIds : List ι) (db : Streams ι) : Streams ι :=
  { db with group := db.group.xack entryIds }

def deliveryCount (entryId : ι) (db : Streams ι) : ℕ :=
  ((db.group.xpendingRange claimBatch).find? fun p => p.messageId = entryId).elim 0
    Pending.timesDelivered

def claimPending (consumer : String) (now minIdleMs count : ℕ) (db : Streams ι) :
    Except String (List (StreamEntry ι)) × Streams ι :=
  let (messages, _, group) := db.group.xautoclaim consumer now minIdleMs count
  (parsed rt messages, { db with group })

def deadLetter (event : KnowledgeEvent) (entryId : ι) (reason now : String) (db : Streams ι) :
    Streams ι :=
  { db with deadLetters := db.deadLetters ++ [⟨event.toDict.set "reason" reason, entryId, now⟩] }

/-! ### One entry -/

/-- A handler, and whether it declares an `operation` parameter. -/
inductive Handler (ρ : Type)
  | plain (handle : ρ → Except String Unit)
  | wantsOperation (handle : ρ → (operation reason : String) → Except String Unit)

/-- What one attempt at an entry calls, as it answers then. -/
structure Worker (β ρ : Type) where
  artifactReader : String → Except String β
  hexdigest : β → String
  extractor : KnowledgeEvent → β → Except String ρ
  handler : Handler ρ

def verifyContentHash (worker : Worker β ρ) (artifact : β) (expected : String) : Bool :=
  if expected = "" then false else worker.hexdigest artifact = expected

/-- The body of the attempt, up to the handler's return. -/
def attempt (worker : Worker β ρ) (event : KnowledgeEvent) : Except String Unit := do
  let artifact ← worker.artifactReader event.sourceUri
  if ¬ verifyContentHash worker artifact event.contentHash then
    throw (valueError rt ("content_hash mismatch for " ++ quote rt event.sourceUri))
  let record ← worker.extractor event artifact
  match worker.handler with
  | .plain handle          => handle record
  | .wantsOperation handle => handle record event.operation event.reason

inductive Outcome
  | ok | retry | deadLetter
deriving DecidableEq

def processEntry (worker : Worker β ρ) (clock : String) (maxRetries : ℤ) (entryId : ι)
    (event : KnowledgeEvent) (db : Streams ι) : Outcome × Streams ι :=
  match attempt rt worker event with
  | .error exc =>
    if maxRetries ≤ deliveryCount entryId db then
      (.deadLetter, acknowledge [entryId] (deadLetter event entryId exc clock db))
    else (.retry, db)
  | .ok () => (.ok, acknowledge [entryId] db)

/-! ### One pass -/

structure BatchOutcome (ι : Type) where
  processed : ℕ := 0
  lastAckedId : Option ι := none
  deadLettered : ℕ := 0
  retried : ℕ := 0

/-- What a pass meets: who runs it, the server's clock at its two reads and, for each entry, the
calls of the attempt and the worker's clock. -/
structure PassEnv (ι β ρ : Type) where
  consumer : String
  claimedAt : ℕ
  readAt : ℕ
  worker : ι → Worker β ρ
  clock : ι → String

def BatchOutcome.count (totals : BatchOutcome ι) (entryId : ι) (result : Outcome) :
    BatchOutcome ι where
  processed := totals.processed + 1
  lastAckedId := if result = .retry then totals.lastAckedId else some entryId
  deadLettered := totals.deadLettered + if result = .deadLetter then 1 else 0
  retried := totals.retried + if result = .retry then 1 else 0

variable (env : PassEnv ι β ρ)

def handle (acc : BatchOutcome ι × Streams ι) (entry : StreamEntry ι) :
    BatchOutcome ι × Streams ι :=
  let (result, db) := processEntry rt (env.worker entry.entryId) (env.clock entry.entryId)
    maxRetries entry.entryId entry.event acc.2
  (acc.1.count entry.entryId result, db)

/-- Claim stale messages, then read new ones. An exception leaves the streams as they are then;
the poll loop logs it and makes its next pass. -/
def processBatch (db : Streams ι) : Except String (BatchOutcome ι) × Streams ι :=
  match claimPending rt env.consumer env.claimedAt leaseTimeoutMs claimBatch db with
  | (.error exc, db)  => (.error exc, db)
  | (.ok entries, db) =>
    let (totals, db) := entries.foldl (handle rt env) ({}, db)
    match readEvents rt env.consumer env.readAt claimBatch db with
    | (.error exc, db)  => (.error exc, db)
    | (.ok entries, db) =>
      let (totals, db) := entries.foldl (handle rt env) (totals, db)
      (.ok totals, db)

end Operations

end AgenticDynamics.Knowledge
