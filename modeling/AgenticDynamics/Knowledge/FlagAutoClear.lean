import AgenticDynamics.Library.Runs
import AgenticDynamics.Knowledge.RegistryLog
import AgenticDynamics.Knowledge.ActuationGate

/-!
# The registry consumer and its auto-clear rule

The handler of the registry group writes the lines of a record, remembers the flag of each
session, and tombstones the flag of a session when it handles a healthy observation of it. What it
remembers is a dictionary of its own process.

The handler is called by any process of the group, with any event, as often as the stream
delivers it.
-/

namespace AgenticDynamics.Knowledge

open Python

/-! ### HandlerCall one event -/

/-- The fields of a record that the registry consumer writes. -/
def KnowledgeRecord.registry (r : KnowledgeRecord) : RegistryRecord where
  knowledgeId := r.knowledgeId
  entityId := r.entityId
  sourceType := r.sourceType
  logicalLocator := r.logicalLocator
  sourceUri := r.sourceUri
  validFrom := r.validFrom
  observedAt := r.observedAt
  indexedAt := r.indexedAt
  supersedes := r.supersedes
  causes := r.causes

/-- `record.subject_id or record.logical_locator`. -/
def KnowledgeRecord.flagKey (r : KnowledgeRecord) : String :=
  Python.orElse (some r.subjectId) r.logicalLocator

/-- The reason of a tombstone of the rule. -/
def clearedReason : String := "auto-cleared: subsequent observation was healthy"

/-- One call of the handler: the process, the event, and what the call meets. -/
structure HandlerCall where
  consumer : String
  record : KnowledgeRecord
  operation : String := "upsert"
  reason : String := ""
  environ : String → Option String := fun _ => none
  /-- How many lines are written before the file refuses one. -/
  refusedLine : Option ℕ := none
  /-- The exception of writing the artifact, if it raises. -/
  artifactFailure : Option String := none
  now : String := ""
  replies : Replies := {}

/-- A tombstone that was published: the flag, the observation that cleared it, and the event. -/
structure Clearance where
  flag : KnowledgeRecord
  observation : KnowledgeRecord
  event : KnowledgeEvent

/-- The registry log, the stream and the artifacts, what each process remembers, the tombstones
that were published and the events that were handled to the end. -/
structure RegistryGroup where
  lines : List Row
  redis : Redis
  artifacts : Dict String
  flags : String → Dict KnowledgeRecord
  cleared : List Clearance
  handled : List (KnowledgeRecord × String)

def RegistryGroup.initial : RegistryGroup where
  lines := []
  redis := .initial
  artifacts := []
  flags _ := []
  cleared := []
  handled := []

namespace RegistryGroup

/-- What a process remembers becomes `flags`. -/
def remember (consumer : String) (flags : Dict KnowledgeRecord) (g : RegistryGroup) :
    RegistryGroup :=
  { g with flags := Function.update g.flags consumer flags }

end RegistryGroup

section Handler

variable (host : Host)

def clearFlagRecord (flag : KnowledgeRecord) (causes : String) : KnowledgeRecord :=
  let provisional := { flag with causes := some causes, knowledgeId := "", contentHash := "" }
  let contentHash := host.sha256 (recordToArtifact host provisional)
  let knowledgeId := computeKnowledgeId host provisional.entityId "observation/unrevisioned"
    contentHash "observation/v1"
  { provisional with contentHash, knowledgeId }

/-- The tombstone that a call publishes for a flag. -/
def HandlerCall.tombstone (h : HandlerCall) (flag : KnowledgeRecord) : Publication where
  event := recordToEvent host (clearFlagRecord host flag h.record.knowledgeId) "delete" clearedReason
    h.now
  recordType := flag.sourceType
  authorized := true
  sourceType := "flag"
  environ := h.environ
  replies := h.replies

def maybeAutoclearFlag (h : HandlerCall) (g : RegistryGroup) : RegistryGroup :=
  if h.record.subjectStatus ≠ "healthy" ∨ h.record.subjectId = "" then g
  else match Dict.get? h.record.subjectId (g.flags h.consumer) with
    | none      => g
    | some flag =>
      if h.environ "FINOPS_KB_WRITE" ≠ some "1" then g
      else if h.artifactFailure.isSome then g
      else
        let cleared := clearFlagRecord host flag h.record.knowledgeId
        let artifacts := Dict.set cleared.knowledgeId (recordToArtifact host cleared) g.artifacts
        let p := h.tombstone host flag
        let (result, redis) := p.publishEvent g.redis
        let published : List Clearance :=
          if p.replies.hset.failure = none ∧ p.replies.xadd.Landed then
            [⟨flag, h.record, p.event⟩]
          else []
        let g := { g with artifacts, redis, cleared := g.cleared ++ published }
        match result with
        | .ok _    => g.remember h.consumer (Dict.erase h.record.subjectId (g.flags h.consumer))
        | .error _ => g

/-- What the handler does after it wrote the lines. -/
def react (h : HandlerCall) (g : RegistryGroup) : RegistryGroup :=
  if h.record.sourceType = "flag" then
    let flags := g.flags h.consumer
    if h.operation = "delete" then g.remember h.consumer (Dict.erase h.record.flagKey flags)
    else g.remember h.consumer (Dict.set h.record.flagKey h.record flags)
  else if h.record.sourceType = "observation" then maybeAutoclearFlag host h g
  else g

/-- The lines that are written, and whether all of them are. -/
def HandlerCall.written (h : HandlerCall) : List Row × Bool :=
  let lines := registryLines h.record.registry h.operation h.reason
  match h.refusedLine with
  | some n => (lines.take n, lines.length ≤ n)
  | none   => (lines, true)

/-- `handler`; an event whose lines are not all written is not handled to the end. -/
def handler (h : HandlerCall) (g : RegistryGroup) : RegistryGroup :=
  let g := { g with lines := g.lines ++ h.written.1 }
  if h.written.2 then
    let g := react host h g
    { g with handled := g.handled ++ [(h.record, h.operation)] }
  else g

/-- A step of the group: a process handles an event, or starts anew. -/
inductive GroupStep
  | handle (h : HandlerCall)
  | restart (consumer : String)

def RegistryGroup.step (g : RegistryGroup) : GroupStep → RegistryGroup
  | .handle h         => handler host h g
  | .restart consumer => g.remember consumer []

end Handler

/-! ### The property -/

section Property

variable {τ : Type} [LinearOrder τ] (instant : String → τ)

/-- The flag was handled, and it is later than every observation of its session that was. -/
def RegistryGroup.LastEvent (g : RegistryGroup) (flag : KnowledgeRecord) : Prop :=
  flag.sourceType = "flag" ∧ (∃ operation, operation ≠ "delete" ∧ (flag, operation) ∈ g.handled) ∧
    ∀ o ∈ g.handled, o.1.sourceType = "observation" → o.1.subjectId = flag.flagKey →
      instant o.1.observedAt < instant flag.observedAt

/-- A tombstone of the rule for an entity. -/
def Row.Clears (r : Row) (entityId : String) : Prop :=
  r.entityId = some entityId ∧ r.sourceType = some "flag" ∧
    r.lifecycleState = some "tombstoned" ∧ r.reason = some clearedReason

/-- The last line about an entity is a tombstone of the rule. -/
def RegistryGroup.Cleared (g : RegistryGroup) (entityId : String) : Prop :=
  ∃ r, (g.lines.filter fun r => r.entityId = some entityId).getLast? = some r ∧ r.Clears entityId

/-- Flags are cleared by later, healthy observations of their sessions, and a flag that is the
last event of its session stands. -/
structure RegistryGroup.KeepsFlags (g : RegistryGroup) : Prop where
  later : ∀ c ∈ g.cleared, c.observation.sourceType = "observation" ∧
    c.observation.subjectStatus = "healthy" ∧ c.observation.subjectId = c.flag.flagKey ∧
      instant c.flag.observedAt < instant c.observation.observedAt
  stands : ∀ flag, g.LastEvent instant flag →
    (∀ c ∈ g.cleared, c.flag ≠ flag) ∧ ¬ g.Cleared flag.entityId

/-! ### The condition -/

/-- A healthy observation finds a flag of its session that is not earlier, and publishes the
tombstone. -/
structure Hasty (g : RegistryGroup) (h : HandlerCall) : Prop where
  observation : h.record.sourceType = "observation" ∧ h.record.subjectStatus = "healthy" ∧
    h.record.subjectId ≠ ""
  finds : ∃ flag, Dict.get? h.record.subjectId (g.flags h.consumer) = some flag ∧
    ¬ instant flag.observedAt < instant h.record.observedAt
  writes : h.written.2 = true ∧ h.environ "FINOPS_KB_WRITE" = some "1" ∧ h.artifactFailure = none
  publishes : h.replies.hset.failure = none ∧ h.replies.xadd.Landed

/-- A tombstone of the rule comes to a flag that is the last event of its session. -/
structure Overdue (g : RegistryGroup) (h : HandlerCall) : Prop where
  tombstone : h.record.sourceType = "flag" ∧ h.operation = "delete" ∧ h.reason = clearedReason
  writes : h.written.1 ≠ []
  last : ∃ flag, g.LastEvent instant flag ∧ flag.entityId = h.record.entityId

/-- The step clears no flag in haste, and brings no tombstone to a flag that came later. -/
def Orderly (g : RegistryGroup) : GroupStep → Prop
  | .handle h  => ¬ Hasty instant g h ∧ ¬ Overdue instant g h
  | .restart _ => True

end Property

end AgenticDynamics.Knowledge
