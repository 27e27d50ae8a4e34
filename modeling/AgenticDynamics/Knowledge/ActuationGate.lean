import AgenticDynamics.Knowledge.Record

/-!
# Publishing, and the gate in front of an actuation

An event is appended by a writer that is authorized. The event of an actuation has to be armed
besides, and to cite an observation that the source-type index knows. The index is written by the
call that publishes the observation, before it appends the event.

Each command comes with how Redis answers it. An entry carries what the call knew: the source
type of the record that the event points to, and whether the call was armed.
-/

namespace AgenticDynamics.Knowledge

open Python

/-! ### Families -/

inductive MessageFamily
  | observation | actuation
deriving DecidableEq

/-- `SOURCE_TYPES`, as far as the families go. -/
def sourceTypes : Dict MessageFamily :=
  [("finding", .observation), ("code", .observation), ("report", .observation),
    ("policy", .observation), ("story", .observation), ("review", .observation),
    ("ledger_job", .observation), ("ledger_attempt", .observation),
    ("observation", .observation), ("flag", .observation), ("meta_session", .observation),
    ("decision", .observation), ("wave_verdict", .observation), ("belief", .observation),
    ("reflection", .observation), ("spec", .observation), ("fact", .observation),
    ("pattern", .observation), ("context_snapshot", .observation), ("orphan", .observation),
    ("actuation", .actuation)]

def messageFamily (sourceType : String) : MessageFamily :=
  (Dict.get? sourceType sourceTypes).getD .observation

/-! ### Redis -/

/-- How a command fares: it is done, or it fails before or after it took effect. -/
inductive Reply
  | done
  | lost (detail : String)
  | unheard (detail : String)

def Reply.Landed : Reply → Prop
  | lost _ => False
  | _      => True

instance (reply : Reply) : Decidable reply.Landed := by
  cases reply <;> unfold Reply.Landed <;> infer_instance

def Reply.failure : Reply → Option String
  | done           => none
  | lost detail    => some detail
  | unheard detail => some detail

structure Appended where
  event : KnowledgeEvent
  recordType : String
  armed : Bool

/-- The streams, and the source-type index. -/
structure Redis where
  streams : String → List Appended
  sourceTypeIndex : String → Option String

def Redis.initial : Redis where
  streams _ := []
  sourceTypeIndex _ := none

namespace Redis

/-- `hset` of the index. -/
def index (knowledgeId sourceType : String) (redis : Redis) : Redis :=
  { redis with sourceTypeIndex := Function.update redis.sourceTypeIndex knowledgeId (some sourceType) }

/-- `xadd`. -/
def append (stream : String) (entry : Appended) (redis : Redis) : Redis :=
  { redis with streams := Function.update redis.streams stream (redis.streams stream ++ [entry]) }

def resolvesToObservation (redis : Redis) (knowledgeId : String) : Bool :=
  match redis.sourceTypeIndex knowledgeId with
  | none       => false
  | some stype => stype ≠ "" && messageFamily stype = .observation

end Redis

/-! ### Publishing -/

inductive PublishError
  | notAuthorized
  | notArmed
  | badCauses
  | redis (detail : String)
deriving DecidableEq

def PublishError.message : PublishError → String
  | notAuthorized =>
    "knowledge write not authorized: set FINOPS_KB_WRITE=1 or pass authorized=True"
  | notArmed =>
    "actuation not armed: set FINOPS_ACTUATION_ARMED=1 or pass armed=True " ++
      "(today, nothing in the running system does either — this is a future hook)"
  | badCauses =>
    "actuation event missing or invalid `causes`: every actuation must cite " ++
      "the knowledge_id of the observation-family record that justified it"
  | redis detail => detail

/-- How Redis answers the commands of one publication. -/
structure Replies where
  hget : Reply := .done
  hset : Reply := .done
  xadd : Reply := .done

/-- The arguments of `publish_event`, its environment, and the type of the record it points to. -/
structure Publication where
  event : KnowledgeEvent
  recordType : String
  stream : String := "kb:v1:changes"
  authorized : Bool := false
  armed : Bool := false
  sourceType : String := ""
  environ : String → Option String := fun _ => none
  replies : Replies := {}

namespace Publication

def Authorized (p : Publication) : Prop := p.authorized ∨ p.environ "FINOPS_KB_WRITE" = some "1"

instance (p : Publication) : Decidable p.Authorized := inferInstanceAs (Decidable (_ ∨ _))

def Armed (p : Publication) : Prop := p.armed ∨ p.environ "FINOPS_ACTUATION_ARMED" = some "1"

instance (p : Publication) : Decidable p.Armed := inferInstanceAs (Decidable (_ ∨ _))

/-- The entry that the publication appends. -/
def entry (p : Publication) : Appended := ⟨p.event, p.recordType, p.Armed⟩

/-- The `xadd` at the end; the id of an entry is its place in the stream. -/
def add (p : Publication) (redis : Redis) : Except PublishError ℕ × Redis :=
  let redis' := if p.replies.xadd.Landed then redis.append p.stream p.entry else redis
  match p.replies.xadd.failure with
  | some detail => (.error (.redis detail), redis')
  | none        => (.ok (redis.streams p.stream).length, redis')

def publishEvent (p : Publication) (redis : Redis) : Except PublishError ℕ × Redis :=
  if ¬ p.Authorized then (.error .notAuthorized, redis)
  else if messageFamily p.sourceType = .actuation then
    if ¬ p.Armed then (.error .notArmed, redis)
    else if p.event.causes = "" then (.error .badCauses, redis)
    else match p.replies.hget.failure with
      | some detail => (.error (.redis detail), redis)
      | none =>
        if redis.resolvesToObservation p.event.causes then p.add redis
        else (.error .badCauses, redis)
  else if p.sourceType ≠ "" then
    let redis' :=
      if p.replies.hset.Landed then redis.index p.event.knowledgeId p.sourceType else redis
    match p.replies.hset.failure with
    | some detail => (.error (.redis detail), redis')
    | none        => p.add redis'
  else p.add redis

end Publication

/-! ### Many at once -/

/-- A loop that goes on after an exception, or ends with it. -/
def publishAll (failLoud : Bool) : List Publication → List ℕ → Redis →
    Except PublishError (List ℕ) × Redis
  | [],        ids, redis => (.ok ids, redis)
  | p :: rest, ids, redis =>
    match p.publishEvent redis with
    | (.ok id, redis)   => publishAll failLoud rest (ids ++ [id]) redis
    | (.error e, redis) => if failLoud then (.error e, redis) else publishAll failLoud rest ids redis

/-- A record to register, with the clock of `record_to_event` and how Redis answers. -/
structure Registration where
  record : KnowledgeRecord
  now : String
  replies : Replies := {}

/-- What `register_records` passes to `publish_event`. -/
def Registration.publication (host : Host) (environ : String → Option String) (r : Registration) :
    Publication where
  event := recordToEvent host r.record "upsert" "" r.now
  recordType := r.record.sourceType
  authorized := true
  sourceType := r.record.sourceType
  environ := environ
  replies := r.replies

/-- `register_records`; the exception of `connect`, if it raises. -/
def registerRecords (host : Host) (environ : String → Option String) (connect : Option String)
    (records : List Registration) (failLoud : Bool) (redis : Redis) :
    Except PublishError (List ℕ) × Redis :=
  match connect with
  | some detail => (if failLoud then .error (.redis detail) else .ok [], redis)
  | none        => publishAll failLoud (records.map (Registration.publication host environ)) [] redis

/-- An event that is expected, the type of its record, and how Redis answers. -/
structure Expected where
  event : KnowledgeEvent
  recordType : String
  replies : Replies := {}

/-- What `reconcile_missing` passes to `publish_event`. -/
def Expected.publication (environ : String → Option String) (stream : String) (x : Expected) :
    Publication where
  event := x.event
  recordType := x.recordType
  stream := stream
  environ := environ
  replies := x.replies

def reconcileMissing (environ : String → Option String) (stream : String) (expected : List Expected)
    (knownIds : List String) (redis : Redis) : Except PublishError (List ℕ) × Redis :=
  let missing := expected.filter fun x => x.event.knowledgeId ≠ "" && x.event.knowledgeId ∉ knownIds
  publishAll true (missing.map (Expected.publication environ stream)) [] redis

inductive StreamCall
  | publish (p : Publication)
  | register (host : Host) (environ : String → Option String) (connect : Option String)
      (records : List Registration) (failLoud : Bool)
  | reconcile (environ : String → Option String) (stream : String) (expected : List Expected)
      (knownIds : List String)

def StreamCall.run (redis : Redis) : StreamCall → Redis
  | publish p => (p.publishEvent redis).2
  | register host environ connect records failLoud =>
    (registerRecords host environ connect records failLoud redis).2
  | reconcile environ stream expected knownIds =>
    (reconcileMissing environ stream expected knownIds redis).2

def runCalls (calls : List StreamCall) (redis : Redis) : Redis := calls.foldl StreamCall.run redis

end AgenticDynamics.Knowledge
