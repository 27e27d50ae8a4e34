import AgenticDynamics.Library.JsonKeys
import AgenticDynamics.Context.Facts
import AgenticDynamics.Knowledge.KnowledgeStream

/-!
# Knowledge records

A record is built once, from the parts a producer derived. It is written down as an artifact that
leaves the identities and the times of the producer out, and announced by a pointer event that
carries them; a consumer puts the two together again.

Every field of a record has the type its dataclass declares. The bytes of a text are the text.
-/

namespace AgenticDynamics.Knowledge

open Python
open Context (Authority)

/-! ### Records -/

structure PatternPayload where
  claim : String
  population : String
  conditions : List String
  support : ℤ
  uncertainty : Option PyFloat
  validityWindow : String
  sourceExperiment : String

/-- `value` of a field that may be `None`. -/
def orNull (value : Option Json) : Json := value.getD .null

/-- `asdict(payload)`. -/
def PatternPayload.asdict (p : PatternPayload) : Json :=
  .obj
    [("claim", .str p.claim), ("population", .str p.population),
      ("conditions", .arr (p.conditions.map .str)), ("support", .int p.support),
      ("uncertainty", orNull (p.uncertainty.map .float)),
      ("validity_window", .str p.validityWindow), ("source_experiment", .str p.sourceExperiment)]

/-- The value of `pattern_payload`: the dataclass, or a plain value; `None` is a plain `null`. -/
inductive PatternValue
  | typed (payload : PatternPayload)
  | plain (value : Json)

def PatternValue.encode : PatternValue → Json
  | .typed payload => payload.asdict
  | .plain value   => value

def PatternValue.isNone : PatternValue → Bool
  | .plain .null => true
  | _            => false

structure KnowledgeRecord where
  knowledgeId : String
  entityId : String
  sourceUri : String
  sourceType : String
  logicalLocator : String
  repositoryId : String
  branch : String
  worktreeId : String
  commitSha : String
  contentHash : String
  extractorVersion : String
  embeddingVersion : String
  authority : Authority
  validFrom : String
  validTo : Option String
  observedAt : String
  indexedAt : String
  aclScope : String
  containsSensitiveData : Bool
  text : String
  tokenCount : ℤ
  language : String
  symbols : List String
  outcomeId : String
  testExecutedSuccess : Option Bool
  evidenceClass : String
  confidence : Option PyFloat := none
  perturbationStrength : Option PyFloat := none
  causes : Option String := none
  supersedes : Option String := none
  subjectId : String := ""
  subjectStatus : String := ""
  energyTotalJ : Option PyFloat := none
  energyPerToken : Option PyFloat := none
  region : Option String := none
  patternPayload : PatternValue := .plain .null
  sourceFactId : String := ""
  evidenceIds : List String := []

/-- Everything that is refused on the way, and a value whose type is not the field's. -/
inductive RecordError
  | unknownFields (names : List String)
  | notJson (detail : String × String)
  | notObject (value : Json)
  | missing (key : String)
  | authority (value : Json)
  | untyped (key : String)

namespace KnowledgeRecord

/-! ### Documents -/

def fields (r : KnowledgeRecord) : Dict Json :=
  [("knowledge_id", .str r.knowledgeId),
    ("entity_id", .str r.entityId),
    ("source_uri", .str r.sourceUri),
    ("source_type", .str r.sourceType),
    ("logical_locator", .str r.logicalLocator),
    ("repository_id", .str r.repositoryId),
    ("branch", .str r.branch),
    ("worktree_id", .str r.worktreeId),
    ("commit_sha", .str r.commitSha),
    ("content_hash", .str r.contentHash),
    ("extractor_version", .str r.extractorVersion),
    ("embedding_version", .str r.embeddingVersion),
    ("authority", .str r.authority.name),
    ("valid_from", .str r.validFrom),
    ("valid_to", orNull (r.validTo.map .str)),
    ("observed_at", .str r.observedAt),
    ("indexed_at", .str r.indexedAt),
    ("acl_scope", .str r.aclScope),
    ("contains_sensitive_data", .bool r.containsSensitiveData),
    ("text", .str r.text),
    ("token_count", .int r.tokenCount),
    ("language", .str r.language),
    ("symbols", .arr (r.symbols.map .str)),
    ("outcome_id", .str r.outcomeId),
    ("test_executed_success", orNull (r.testExecutedSuccess.map .bool)),
    ("evidence_class", .str r.evidenceClass),
    ("confidence", orNull (r.confidence.map .float)),
    ("perturbation_strength", orNull (r.perturbationStrength.map .float)),
    ("causes", orNull (r.causes.map .str)),
    ("supersedes", orNull (r.supersedes.map .str)),
    ("subject_id", .str r.subjectId),
    ("subject_status", .str r.subjectStatus)]

/-- The entries that are left out when there is nothing to say. -/
def optionalFields (r : KnowledgeRecord) : Dict (Option Json) :=
  [("energy_total_j", r.energyTotalJ.map .float),
    ("energy_per_token", r.energyPerToken.map .float),
    ("region", r.region.map .str),
    ("pattern_payload", if r.patternPayload.isNone then none else some r.patternPayload.encode),
    ("source_fact_id", if r.sourceFactId = "" then none else some (.str r.sourceFactId)),
    ("evidence_ids", if r.evidenceIds = [] then none else some (.arr (r.evidenceIds.map .str)))]

def present (d : Dict (Option Json)) : Dict Json :=
  d.filterMap fun entry => entry.2.map fun value => (entry.1, value)

def toDict (r : KnowledgeRecord) : Dict Json := r.fields ++ present r.optionalFields

/-! ### Reading a document -/

section Read

variable (rt : Runtime) (d : Dict Json)

/-- `d[key]`. -/
def required (key : String) : Except RecordError Json :=
  (Dict.get? key d).elim (.error (.missing key)) .ok

/-- `d.get(key)`. -/
def lookup (key : String) : Json := (Dict.get? key d).getD .null

def asText (key : String) : Json → Except RecordError String
  | .str s => .ok s
  | _      => .error (.untyped key)

def asBool (key : String) : Json → Except RecordError Bool
  | .bool b => .ok b
  | _       => .error (.untyped key)

def asInt (key : String) : Json → Except RecordError ℤ
  | .int n => .ok n
  | _      => .error (.untyped key)

def asFloat (key : String) : Json → Except RecordError PyFloat
  | .float x => .ok x
  | _        => .error (.untyped key)

/-- A field that may be `None`. -/
def asOptional {α : Type} (read : Json → Except RecordError α) : Json → Except RecordError (Option α)
  | .null => .ok none
  | value => (read value).map some

/-- `list(value or [])` of texts. -/
def asTexts (key : String) : Json → Except RecordError (List String)
  | .arr items => items.mapM (asText key)
  | value      => if value.truthy then .error (.untyped key) else .ok []

def coerceAuthority (value : Json) : Except RecordError Authority :=
  let found : Option Authority :=
    match value with
    | .int n  => [Authority.advisory, .derived, .measured, .source, .policy].find? fun a => a.rank = n
    | .bool b => if b then some .advisory else none
    | _       => Authority.ofName? (rt.upper (value.text rt))
  found.elim (.error (.authority value)) .ok

def textField (key : String) : Except RecordError String := required d key >>= asText key

/-- A text that may be `None`, or missing. -/
def textOrNone (key : String) : Except RecordError (Option String) :=
  asOptional (asText key) (lookup d key)

def floatOrNone (key : String) : Except RecordError (Option PyFloat) :=
  asOptional (asFloat key) (lookup d key)

/-- `d.get(key, "")`. -/
def textOrEmpty (key : String) : Except RecordError String :=
  asText key ((Dict.get? key d).getD (.str ""))

def fromDict : Except RecordError KnowledgeRecord := do
  let knowledgeId ← textField d "knowledge_id"
  let entityId ← textField d "entity_id"
  let sourceUri ← textField d "source_uri"
  let sourceType ← textField d "source_type"
  let logicalLocator ← textField d "logical_locator"
  let repositoryId ← textField d "repository_id"
  let branch ← textField d "branch"
  let worktreeId ← textField d "worktree_id"
  let commitSha ← textField d "commit_sha"
  let contentHash ← textField d "content_hash"
  let extractorVersion ← textField d "extractor_version"
  let embeddingVersion ← textField d "embedding_version"
  let authority ← required d "authority" >>= coerceAuthority rt
  let validFrom ← textField d "valid_from"
  let validTo ← textOrNone d "valid_to"
  let observedAt ← textField d "observed_at"
  let indexedAt ← textField d "indexed_at"
  let aclScope ← textField d "acl_scope"
  let containsSensitiveData ← required d "contains_sensitive_data" >>= asBool "contains_sensitive_data"
  let text ← textField d "text"
  let tokenCount ← required d "token_count" >>= asInt "token_count"
  let language ← textField d "language"
  let symbols ← asTexts "symbols" (lookup d "symbols")
  let outcomeId ← textField d "outcome_id"
  let testExecutedSuccess ←
    asOptional (asBool "test_executed_success") (lookup d "test_executed_success")
  let evidenceClass ← textField d "evidence_class"
  let confidence ← floatOrNone d "confidence"
  let perturbationStrength ← floatOrNone d "perturbation_strength"
  let causes ← textOrNone d "causes"
  let supersedes ← textOrNone d "supersedes"
  let subjectId ← textOrEmpty d "subject_id"
  let subjectStatus ← textOrEmpty d "subject_status"
  let energyTotalJ ← floatOrNone d "energy_total_j"
  let energyPerToken ← floatOrNone d "energy_per_token"
  let region ← textOrNone d "region"
  let sourceFactId ← textOrEmpty d "source_fact_id"
  let evidenceIds ← asTexts "evidence_ids" (lookup d "evidence_ids")
  return {
    knowledgeId, entityId, sourceUri, sourceType, logicalLocator, repositoryId, branch, worktreeId
    commitSha, contentHash, extractorVersion, embeddingVersion, authority, validFrom, validTo
    observedAt, indexedAt, aclScope, containsSensitiveData, text, tokenCount, language, symbols
    outcomeId, testExecutedSuccess, evidenceClass, confidence, perturbationStrength, causes
    supersedes, subjectId, subjectStatus, energyTotalJ, energyPerToken, region
    patternPayload := .plain (lookup d "pattern_payload")
    sourceFactId, evidenceIds }

end Read

end KnowledgeRecord

/-! ### Identities -/

section Identity

variable (host : Host)

/-- `_sha256(*parts)`. -/
def sha256 (parts : List String) : String := host.sha256 ("|".intercalate parts)

def computeEntityId (repositoryId sourceUri logicalLocator : String) : String :=
  sha256 host [repositoryId, sourceUri, logicalLocator]

def computeKnowledgeId (entityId sourceRevision contentHash extractorVersion : String) : String :=
  sha256 host [entityId, sourceRevision, contentHash, extractorVersion]

/-! ### Artifacts -/

/-- What is blank in an artifact, and what is left out of it when it is empty. -/
def blankKeys : List String :=
  ["knowledge_id", "content_hash", "valid_from", "observed_at", "indexed_at"]
def subjectKeys : List String := ["subject_id", "subject_status"]

def blank (keys : List String) (data : Dict Json) : Dict Json :=
  keys.foldl (fun data key => Dict.set key (.str "") data) data

def dropEmpty (keys : List String) (data : Dict Json) : Dict Json :=
  keys.foldl
    (fun data key => if (KnowledgeRecord.lookup data key).truthy then data else Dict.erase key data)
    data

def artifactDoc (record : KnowledgeRecord) : Dict Json :=
  dropEmpty subjectKeys (blank blankKeys record.toDict)

def recordToArtifact (record : KnowledgeRecord) : String := host.dumps (.obj (artifactDoc record))

/-! ### Building -/

/-- The fields of `extra_fields` that are given, and the keys that name no field. -/
structure ExtraFields where
  unknown : List String := []
  knowledgeId : Option String := none
  entityId : Option String := none
  sourceUri : Option String := none
  sourceType : Option String := none
  logicalLocator : Option String := none
  repositoryId : Option String := none
  branch : Option String := none
  worktreeId : Option String := none
  commitSha : Option String := none
  contentHash : Option String := none
  extractorVersion : Option String := none
  embeddingVersion : Option String := none
  authority : Option Authority := none
  validFrom : Option String := none
  validTo : Option (Option String) := none
  observedAt : Option String := none
  indexedAt : Option String := none
  aclScope : Option String := none
  containsSensitiveData : Option Bool := none
  text : Option String := none
  tokenCount : Option ℤ := none
  language : Option String := none
  symbols : Option (List String) := none
  outcomeId : Option String := none
  testExecutedSuccess : Option (Option Bool) := none
  evidenceClass : Option String := none
  confidence : Option (Option PyFloat) := none
  perturbationStrength : Option (Option PyFloat) := none
  causes : Option (Option String) := none
  supersedes : Option (Option String) := none
  subjectId : Option String := none
  subjectStatus : Option String := none
  energyTotalJ : Option (Option PyFloat) := none
  energyPerToken : Option (Option PyFloat) := none
  region : Option (Option String) := none
  patternPayload : Option PatternValue := none
  sourceFactId : Option String := none
  evidenceIds : Option (List String) := none

/-- The arguments of `build_record`. -/
structure RecordParts where
  sourceType : String
  sourceUri : String
  logicalLocator : String
  repositoryId : String
  revision : String
  authority : Authority
  evidenceClass : String
  text : String
  extra : ExtraFields := {}
  entityId : Option String := none

def RecordParts.entity (parts : RecordParts) : String :=
  parts.entityId.getD (computeEntityId host parts.repositoryId parts.sourceUri parts.logicalLocator)

/-- The record before its identities are filled in. -/
def RecordParts.draft (parts : RecordParts) (ts : String) : KnowledgeRecord :=
  let extra := parts.extra
  { knowledgeId := extra.knowledgeId.getD ""
    entityId := extra.entityId.getD (parts.entity host)
    sourceUri := extra.sourceUri.getD parts.sourceUri
    sourceType := extra.sourceType.getD parts.sourceType
    logicalLocator := extra.logicalLocator.getD parts.logicalLocator
    repositoryId := extra.repositoryId.getD parts.repositoryId
    branch := extra.branch.getD ""
    worktreeId := extra.worktreeId.getD ""
    commitSha := extra.commitSha.getD parts.revision
    contentHash := extra.contentHash.getD ""
    extractorVersion := extra.extractorVersion.getD ""
    embeddingVersion := extra.embeddingVersion.getD ""
    authority := extra.authority.getD parts.authority
    validFrom := extra.validFrom.getD ts
    validTo := extra.validTo.getD none
    observedAt := extra.observedAt.getD ts
    indexedAt := extra.indexedAt.getD ts
    aclScope := extra.aclScope.getD "public"
    containsSensitiveData := extra.containsSensitiveData.getD false
    text := extra.text.getD parts.text
    tokenCount := extra.tokenCount.getD (max 1 (words parts.text).length)
    language := extra.language.getD ""
    symbols := extra.symbols.getD []
    outcomeId := extra.outcomeId.getD ""
    testExecutedSuccess := extra.testExecutedSuccess.getD none
    evidenceClass := extra.evidenceClass.getD parts.evidenceClass
    confidence := extra.confidence.getD none
    perturbationStrength := extra.perturbationStrength.getD none
    causes := extra.causes.getD none
    supersedes := extra.supersedes.getD none
    subjectId := extra.subjectId.getD ""
    subjectStatus := extra.subjectStatus.getD ""
    energyTotalJ := extra.energyTotalJ.getD none
    energyPerToken := extra.energyPerToken.getD none
    region := extra.region.getD none
    patternPayload := extra.patternPayload.getD (.plain .null)
    sourceFactId := extra.sourceFactId.getD ""
    evidenceIds := extra.evidenceIds.getD [] }

/-- `build_record`; the clock reads `ts`. -/
def buildRecord (parts : RecordParts) (ts : String) : Except RecordError KnowledgeRecord :=
  if parts.extra.unknown ≠ [] then .error (.unknownFields (parts.extra.unknown.mergeSort (· ≤ ·)))
  else
    let record := parts.draft host ts
    let contentHash := host.sha256 (recordToArtifact host record)
    let knowledgeId :=
      computeKnowledgeId host (parts.entity host) parts.revision contentHash record.extractorVersion
    .ok { record with contentHash, knowledgeId }

/-! ### Events -/

def artifactUri (knowledgeId : String) : String :=
  "file://experiments/results/kb/" ++ knowledgeId ++ ".json"

/-- `record_to_event`; the clock reads `now`. -/
def recordToEvent (record : KnowledgeRecord) (operation reason now : String) : KnowledgeEvent where
  knowledgeId := record.knowledgeId
  entityId := record.entityId
  operation := operation
  sourceUri := artifactUri record.knowledgeId
  sourceRevision := record.commitSha
  contentHash := host.sha256 (recordToArtifact host record)
  occurredAt := now
  schemaVersion := "kb/v1"
  eventId := record.knowledgeId
  causes := record.causes.getD ""
  reason := reason
  observedAt := record.observedAt

/-- `extract_record`; the clock reads `now`. -/
def extractRecord (event : KnowledgeEvent) (artifact now : String) :
    Except RecordError KnowledgeRecord :=
  match host.loads artifact with
  | .error detail  => .error (.notJson detail)
  | .ok (.obj data) => do
    let record ← KnowledgeRecord.fromDict host.toRuntime data
    .ok
      { record with
        knowledgeId := event.knowledgeId
        contentHash := event.contentHash
        validFrom := event.occurredAt
        observedAt := orElse (some event.observedAt) event.occurredAt
        indexedAt := now }
  | .ok value => .error (.notObject value)

/-- `repr` of the exception. -/
def RecordError.exception (rt : Runtime) : RecordError → String
  | unknownFields names =>
    valueError rt ("unknown KnowledgeRecord field(s) in extra_fields: " ++
      rt.repr (.arr (names.map .str)))
  | notJson detail      => detail.1 ++ "(" ++ quote rt detail.2 ++ ")"
  | notObject value     => "TypeError(" ++ quote rt value.typeName ++ ")"
  | missing key         => keyError rt key
  | authority value     => keyError rt (rt.upper (value.text rt))
  | untyped key         => "TypeError(" ++ quote rt key ++ ")"

/-- A consumer that reads artifacts and extracts records. -/
def recordWorker (artifactReader : String → Except String String) (now : String)
    (handler : Handler KnowledgeRecord) : Worker String KnowledgeRecord where
  artifactReader := artifactReader
  hexdigest := host.sha256
  extractor event artifact :=
    (extractRecord host event artifact now).mapError (RecordError.exception host.toRuntime)
  handler := handler

end Identity

end AgenticDynamics.Knowledge
