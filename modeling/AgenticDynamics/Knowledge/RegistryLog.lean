import Mathlib.Data.String.Basic
import AgenticDynamics.Library.Python
import AgenticDynamics.Library.StableSort

/-!
# The registry log and its compaction

The registry consumer appends one line for each record it handles, and a marker line for the
predecessor of a record that supersedes one. Compaction folds the lines of a version into one
row, derives what became of each version and reports one row for each entity.

A field of a line is a text, or none where the key is missing or null.
-/

namespace AgenticDynamics.Knowledge

open Python StableSort

/-! ### Lines -/

structure Row where
  knowledgeId : Option String := none
  entityId : Option String := none
  sourceType : Option String := none
  logicalLocator : Option String := none
  sourceUri : Option String := none
  lifecycleState : Option String := none
  validTo : Option String := none
  observedAt : Option String := none
  indexedAt : Option String := none
  supersedes : Option String := none
  causes : Option String := none
  reason : Option String := none
deriving DecidableEq

/-- A line of the file after it was stripped and decoded. -/
inductive Line
  | blank
  | damaged
  | other (typeName : String)
  | row (r : Row)
deriving DecidableEq

def truthy (v : Option String) : Option String := v.filter (· ≠ "")

/-- `{**old, **{k: v for k, v in new.items() if v is not None}}`. -/
def Row.merge (old new : Row) : Row where
  knowledgeId := new.knowledgeId.or old.knowledgeId
  entityId := new.entityId.or old.entityId
  sourceType := new.sourceType.or old.sourceType
  logicalLocator := new.logicalLocator.or old.logicalLocator
  sourceUri := new.sourceUri.or old.sourceUri
  lifecycleState := new.lifecycleState.or old.lifecycleState
  validTo := new.validTo.or old.validTo
  observedAt := new.observedAt.or old.observedAt
  indexedAt := new.indexedAt.or old.indexedAt
  supersedes := new.supersedes.or old.supersedes
  causes := new.causes.or old.causes
  reason := new.reason.or old.reason

namespace Row

/-- `row["knowledge_id"]` and `row["entity_id"]` of a row that has them. -/
def kid (r : Row) : String := r.knowledgeId.getD ""
def entity (r : Row) : String := r.entityId.getD ""

/-- `str(row.get("indexed_at") or "")`. -/
def indexed (r : Row) : String := r.indexedAt.getD ""

/-- The row can be attributed to a version of an entity. -/
def Attributed (r : Row) : Prop := r.kid ≠ "" ∧ r.entity ≠ ""

instance (r : Row) : Decidable r.Attributed := inferInstanceAs (Decidable (_ ∧ _))

end Row

/-! ### The registry consumer -/

/-- The fields of a record that the registry consumer writes or reads. -/
structure RegistryRecord where
  knowledgeId : String
  entityId : String
  sourceType : String := ""
  logicalLocator : String := ""
  sourceUri : String := ""
  validFrom : String
  observedAt : String
  indexedAt : String
  supersedes : Option String := none
  causes : Option String := none

def lifecycleStateFor (operation : String) : String :=
  if operation = "delete" then "tombstoned" else "current"

/-- The lines that the handler of `kb-registry-v1` appends for one record. -/
def registryLines (record : RegistryRecord) (operation reason : String) : List Row :=
  let line : Row :=
    { knowledgeId := some record.knowledgeId
      entityId := some record.entityId
      sourceType := some record.sourceType
      logicalLocator := some record.logicalLocator
      sourceUri := some record.sourceUri
      lifecycleState := some (lifecycleStateFor operation)
      observedAt := some record.observedAt
      indexedAt := some record.indexedAt
      supersedes := record.supersedes
      causes := record.causes
      reason := some reason }
  match truthy record.supersedes with
  | some predecessor =>
    if operation = "supersede" then
      [line,
        { knowledgeId := some predecessor
          entityId := some record.entityId
          lifecycleState := some "superseded"
          validTo := some record.validFrom
          indexedAt := some record.indexedAt }]
    else [line]
  | none => [line]

/-! ### One row for each version -/

/-- What stops a compaction: a line that is no object, a missing `indexed_at` where two heads are
compared, and an entity without versions. -/
inductive CompactionError
  | attributeError (typeName : String)
  | indexedAt
  | indexError
deriving DecidableEq

def iterRegistryRows : List Line → Except CompactionError (List Row)
  | []                => .ok []
  | .blank :: lines   => iterRegistryRows lines
  | .damaged :: lines => iterRegistryRows lines
  | .other t :: _     => .error (.attributeError t)
  | .row r :: lines   => do
    let rows ← iterRegistryRows lines
    return if r.Attributed then r :: rows else rows

/-- Fold a line into the row of its version; a line that is older than the row is dropped. -/
def collect (d : Dict Row) (row : Row) : Dict Row :=
  match d.get? row.kid with
  | none          => d.set row.kid row
  | some existing =>
    if existing.indexed ≤ row.indexed then d.set row.kid (existing.merge row) else d

def byKnowledgeId (rows : List Row) : Dict Row := rows.foldl collect []

/-- The rows that name a predecessor, by its id. -/
def successors (d : Dict Row) : Dict Row :=
  d.foldl (fun acc kv => (truthy kv.2.supersedes).elim acc fun k => acc.set k kv.2) []

inductive Lifecycle
  | current | superseded | tombstoned
deriving DecidableEq

def deriveLifecycle (row : Row) (successorByPredecessor : Dict Row) :
    Lifecycle × Option String :=
  match successorByPredecessor.get? row.kid with
  | some successor => (.superseded, (truthy successor.observedAt).or successor.indexedAt)
  | none =>
    if row.lifecycleState = some "tombstoned" then
      (.tombstoned, (truthy row.validTo).or row.indexedAt)
    else (.current, row.validTo)

/-- The row of a version with its derived state in place of what the lines say. -/
structure Version where
  row : Row
  lifecycle : Lifecycle
  validTo : Option String
deriving DecidableEq

def derivedVersions (d : Dict Row) : List Version :=
  d.map fun kv =>
    let state := deriveLifecycle kv.2 (successors d)
    ⟨kv.2, state.1, state.2⟩

/-! ### One row for each entity -/

def byEntity (versions : List Version) : Dict (List Version) :=
  versions.foldl (fun d v => d.set v.row.entity ((d.get? v.row.entity).getD [] ++ [v])) []

/-- `tombstoned[-1]["indexed_at"] >= live[-1]["indexed_at"]`. -/
def notBefore (tombstone live : Version) : Except CompactionError Bool :=
  match tombstone.row.indexedAt, live.row.indexedAt with
  | some t, some l => .ok (l ≤ t)
  | _, _           => .error .indexedAt

def headOf (rows : List Version) : Except CompactionError Version :=
  let tombstoned := (rows.filter fun r => r.lifecycle = .tombstoned).getLast?
  let live := (rows.filter fun r => r.lifecycle = .current).getLast?
  match tombstoned, live with
  | some t, none   => .ok t
  | some t, some l => (notBefore t l).map fun b => if b then t else l
  | none, some l   => .ok l
  | none, none     => rows.getLast?.elim (.error .indexError) .ok

/-- A tombstone closes the open versions of its entity. -/
def closeOpen (head : Version) (rows : List Version) : List Version :=
  if head.lifecycle = .tombstoned then
    rows.map fun r =>
      if r.row.kid ≠ head.row.kid ∧ r.lifecycle = .current then
        { r with
          lifecycle := .superseded
          validTo := (truthy head.row.observedAt).or head.row.indexedAt }
      else r
  else rows

structure RegistryVersion where
  knowledgeId : String
  lifecycle : Lifecycle
  validTo : Option String
  observedAt : Option String
  indexedAt : Option String
  reason : Option String
deriving DecidableEq

structure RegistryRow where
  entityId : String
  knowledgeId : String
  sourceType : Option String
  logicalLocator : Option String
  sourceUri : Option String
  observedAt : Option String
  indexedAt : Option String
  supersedes : Option String
  causes : Option String
  reason : Option String
  lifecycle : Lifecycle
  validTo : Option String
  versions : List RegistryVersion
deriving DecidableEq

def Version.listed (v : Version) : RegistryVersion where
  knowledgeId := v.row.kid
  lifecycle := v.lifecycle
  validTo := v.validTo
  observedAt := v.row.observedAt
  indexedAt := v.row.indexedAt
  reason := v.row.reason

def compactEntity (entityId : String) (versions : List Version) :
    Except CompactionError RegistryRow := do
  let rows := sortBy (fun v => v.row.indexed) versions
  let head ← headOf rows
  return {
    entityId
    knowledgeId := head.row.kid
    sourceType := head.row.sourceType
    logicalLocator := head.row.logicalLocator
    sourceUri := head.row.sourceUri
    observedAt := head.row.observedAt
    indexedAt := head.row.indexedAt
    supersedes := head.row.supersedes
    causes := head.row.causes
    reason := head.row.reason
    lifecycle := head.lifecycle
    validTo := head.validTo
    versions := (closeOpen head rows).map Version.listed }

/-- The compacted index of a file; none stands for a file that does not exist. -/
def compactRegistryIndex : Option (List Line) → Except CompactionError (List RegistryRow)
  | none       => .ok []
  | some lines => do
    let rows ← iterRegistryRows lines
    let compacted ← (byEntity (derivedVersions (byKnowledgeId rows))).mapM fun kv =>
      compactEntity kv.1 kv.2
    return sortBy RegistryRow.entityId compacted

end AgenticDynamics.Knowledge
