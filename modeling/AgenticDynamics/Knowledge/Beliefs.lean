import Mathlib.Data.Prod.Lex
import AgenticDynamics.Library.StableSort
import AgenticDynamics.Library.Versions
import AgenticDynamics.Knowledge.Record

/-!
# Beliefs and their updates

A belief is a hypothesis with the counts of the outcomes that confirmed and disconfirmed it. Its
versions lie in the artifact directory; the index keeps the one that was updated last. A wave
verdict consults the index and gives a new version of each belief whose citations name the wave,
unless they name the run already.

Confidences are rational numbers.
-/

namespace AgenticDynamics.Knowledge.Beliefs

open Python StableSort
open Context (Authority)

/-! ### Bodies -/

/-- A `ValueError` and its text, the `TypeError` of a value that does not iterate, the
`OverflowError` of `float`, and what `build_record` raises. -/
inductive BeliefError
  | value (message : String)
  | notIterable (typeName : String)
  | overflow
  | record (e : RecordError)

structure BeliefBody where
  hypothesis : String
  priorConfidence : ℚ
  nConfirmations : ℕ
  nDisconfirmations : ℕ
  lastUpdated : String
  posteriorConfidence : ℚ
  evidenceClass : String
  domain : String
  evidenceCitations : List String
  scope : String

def BeliefBody.toDict (b : BeliefBody) : Dict Json :=
  [("hypothesis", .str b.hypothesis),
    ("prior_confidence", .float (.finite b.priorConfidence)),
    ("n_confirmations", .int b.nConfirmations),
    ("n_disconfirmations", .int b.nDisconfirmations),
    ("last_updated", .str b.lastUpdated),
    ("posterior_confidence", .float (.finite b.posteriorConfidence)),
    ("evidence_class", .str b.evidenceClass),
    ("domain", .str b.domain),
    ("evidence_citations", .arr (b.evidenceCitations.map .str)),
    ("actor", .str "aio"),
    ("scope", .str b.scope)]

/-- `round(x, 6)`. -/
def round6 (x : ℚ) : ℚ := roundHalfEven (x * 1000000) / 1000000

def aioAclScope (repositoryId : String) : String := "org:" ++ repositoryId

def repositoryIdDefault : String := "agentic-dynamics"

def evidenceLadder : List String := ["[P]", "[M]", "[C]", "[H]"]

section Values

variable (host : Host) (belief : Dict Json) (field : String)

/-- `str(belief.get(field) or "")`. -/
def textOf : String := (Json.orElse (Dict.get? field belief) (.str "")).text host.toRuntime

def requiredValue : Except BeliefError String :=
  let value := strip (textOf host belief field)
  if value = "" then
    .error (.value ("belief has no " ++ host.quote field ++ " — cannot derive a belief record"))
  else .ok value

def confidenceValue : Except BeliefError ℚ :=
  let refused (problem : String) : Except BeliefError ℚ :=
    .error (.value ("belief " ++ host.quote field ++ " must be " ++ problem))
  match (Dict.get? field belief).getD .null with
  | .null     =>
    .error (.value ("belief has no " ++ host.quote field ++ " — cannot derive a belief record"))
  | .bool b   => refused ("a number in [0, 1], got " ++ host.repr (.bool b))
  | .arr items  => refused ("a number in [0, 1], got " ++ host.repr (.arr items))
  | .obj fields => refused ("a number in [0, 1], got " ++ host.repr (.obj fields))
  | value     =>
    match value.toFloat host.toRuntime with
    | .ok (.finite q) =>
      if 0 ≤ q ∧ q ≤ 1 then .ok q
      else refused ("in [0, 1], got " ++ host.repr (.float (.finite q)))
    | .ok x           => refused ("in [0, 1], got " ++ host.repr (.float x))
    | .error e        =>
      if e = "OverflowError" then .error .overflow
      else refused ("a number in [0, 1], got " ++ host.repr value)

def countValue : Except BeliefError ℕ :=
  let refused (value : Json) : Except BeliefError ℕ :=
    .error (.value ("belief " ++ host.quote field ++ " must be a non-negative int, got " ++
      host.repr value))
  match (Dict.get? field belief).getD (.int 0) with
  | .null  => .ok 0
  | .int n => if n < 0 then refused (.int n) else .ok n.toNat
  | value  => refused value

def listValue : Except BeliefError (List String) :=
  match (Dict.get? field belief).getD .null with
  | .null  => .ok []
  | .str s => .ok [s]
  | value  =>
    match value.toList with
    | .ok items => .ok (items.map fun item => item.text host.toRuntime)
    | .error _  => .error (.notIterable value.typeName)

def evidenceClassValue : Except BeliefError String :=
  let value := host.upper (strip
    ((Json.orElse (Dict.get? "evidence_class" belief) (.str "[H]")).text host.toRuntime))
  if value ∈ evidenceLadder then .ok value
  else .error (.value ("belief evidence_class must be one of ('[P]', '[M]', '[C]', '[H]') " ++
    "(the prior-authority ladder), got " ++ host.quote value))

end Values

/-- `compute_posterior` of a checked prior and checked counts. -/
def computePosterior (priorConfidence : ℚ) (nConfirmations nDisconfirmations : ℕ) : ℚ :=
  let a := priorConfidence * 2
  let b := (1 - priorConfidence) * 2
  round6 ((a + nConfirmations) / (a + b + nConfirmations + nDisconfirmations))

section Derivation

variable (host : Host)

def beliefId (domain hypothesis : String) : String :=
  String.ofList ((host.sha256 (domain ++ "|" ++ hypothesis)).toList.take 16)

/-- The posterior of `belief_payload`: the one that is given, or the computed one. -/
def posteriorValue (belief : Dict Json) (priorConfidence : ℚ) (nConfirmations nDisconfirmations : ℕ) :
    Except BeliefError ℚ :=
  match (Dict.get? "posterior_confidence" belief).getD .null with
  | .null => .ok (computePosterior priorConfidence nConfirmations nDisconfirmations)
  | _     => (confidenceValue host belief "posterior_confidence").map round6

def beliefPayload (belief : Dict Json) (repositoryId : String) : Except BeliefError BeliefBody := do
  let hypothesis ← requiredValue host belief "hypothesis"
  let domain ← requiredValue host belief "domain"
  let lastUpdated ← requiredValue host belief "last_updated"
  let priorConfidence := round6 (← confidenceValue host belief "prior_confidence")
  let nConfirmations ← countValue host belief "n_confirmations"
  let nDisconfirmations ← countValue host belief "n_disconfirmations"
  let evidenceClass ← evidenceClassValue host belief
  let posteriorConfidence ←
    posteriorValue host belief priorConfidence nConfirmations nDisconfirmations
  let evidenceCitations ← listValue host belief "evidence_citations"
  return {
    hypothesis, priorConfidence, nConfirmations, nDisconfirmations, lastUpdated,
    posteriorConfidence, evidenceClass, domain, evidenceCitations
    scope := aioAclScope repositoryId }

/-- The arguments that `build_belief_record` gives to `build_record`. -/
def beliefParts (body : BeliefBody) (repositoryId : String) (supersedes : Option String) :
    RecordParts where
  sourceType := "belief"
  sourceUri := "belief:" ++ beliefId host body.domain body.hypothesis
  logicalLocator := beliefId host body.domain body.hypothesis
  repositoryId := repositoryId
  revision := "belief/unrevisioned"
  authority := .advisory
  evidenceClass := "[H]"
  text := host.dumps (.obj body.toDict)
  extra :=
    { commitSha := some ""
      extractorVersion := some "belief/v1"
      aclScope := some (aioAclScope repositoryId)
      observedAt := some body.lastUpdated
      supersedes := supersedes.map some }

/-- `build_belief_record`, and the body of its text; the clock reads `ts`. -/
def buildBeliefRecord (belief : Dict Json) (repositoryId ts : String) (supersedes : Option String) :
    Except BeliefError (BeliefBody × KnowledgeRecord) := do
  let body ← beliefPayload host belief repositoryId
  let record ← (buildRecord host (beliefParts host body repositoryId supersedes) ts).mapError .record
  return (body, record)

/-! ### One update -/

inductive Signal
  | confirm | disconfirm
deriving DecidableEq

/-- The signal of a name; none stands for the `ValueError`. -/
def Signal.ofName? (name : String) : Option Signal :=
  if name = "confirm" then some .confirm
  else if name = "disconfirm" then some .disconfirm
  else none

/-- `update_belief`; the clock reads `now`. -/
def updateBelief (current : Dict Json) (signal : Signal) (citation lastUpdated : Option String)
    (now : String) : Except BeliefError BeliefBody := do
  let base ← beliefPayload host current repositoryIdDefault
  let nConfirmations := base.nConfirmations + if signal = .confirm then 1 else 0
  let nDisconfirmations := base.nDisconfirmations + if signal = .disconfirm then 1 else 0
  let evidenceCitations :=
    match citation with
    | some c =>
      if c ≠ "" ∧ c ∉ base.evidenceCitations then base.evidenceCitations ++ [c]
      else base.evidenceCitations
    | none => base.evidenceCitations
  return { base with
    nConfirmations, nDisconfirmations, evidenceCitations
    lastUpdated := Python.orElse lastUpdated now
    posteriorConfidence :=
      computePosterior base.priorConfidence nConfirmations nDisconfirmations }

/-- `version_record`; the clock reads `clock.1` and then `clock.2`. -/
def versionRecord (current : Dict Json) (supersedes : Option String) (signal : Signal)
    (citation : Option String) (repositoryId : String) (lastUpdated : Option String)
    (clock : String × String) : Except BeliefError (BeliefBody × KnowledgeRecord) := do
  let updated ← updateBelief host current signal citation lastUpdated clock.1
  buildBeliefRecord host updated.toDict repositoryId clock.2 supersedes

/-! ### Which beliefs a verdict bears on -/

def verdictSignal (verdict : String) : String :=
  if verdict = "not" then "disconfirm" else "confirm"

/-- What `_verdict_fields` returns. -/
structure VerdictFields where
  specName : String
  runId : String
  verdict : String

def verdictFields (verdictPayload : Dict Json) : Except BeliefError VerdictFields :=
  let specName := strip (textOf host verdictPayload "spec_name")
  let runId := strip (textOf host verdictPayload "run_id")
  let verdict := strip (textOf host verdictPayload "verdict")
  if specName = "" ∨ runId = "" ∨ verdict = "" then
    .error (.value "a wave-verdict payload needs spec_name/run_id/verdict to consult the belief index")
  else .ok ⟨specName, runId, verdict⟩

/-- `name.lower() in str(citation).lower()`. -/
def namedIn (name : String) (citation : Json) : Bool :=
  (host.lower name).toList <:+: (host.lower (citation.text host.toRuntime)).toList

/-- `payload.get("evidence_citations") or []`, as it is iterated. -/
def citationsOf (payload : Dict Json) : Except BeliefError (List Json) :=
  let value := Json.orElse (Dict.get? "evidence_citations" payload) (.arr [])
  match value.toList with
  | .ok items => .ok items
  | .error _  => .error (.notIterable value.typeName)

def citesWave (payload : Dict Json) (specName runId : String) : Except BeliefError Bool := do
  let citations ← citationsOf payload
  return citations.any fun citation => namedIn host specName citation || namedIn host runId citation

def alreadyCounts (payload : Dict Json) (runId : String) : Except BeliefError Bool := do
  let citations ← citationsOf payload
  return citations.any fun citation => namedIn host runId citation

def outcomeCitation (specName runId : String) : String := specName ++ " wave verdict " ++ runId

/-! ### The index -/

/-- The artifact directory: the text of each file by its stem, none standing for a file that
cannot be read or decoded. -/
structure ArtifactDir where
  files : Dict (Option String)
  nodup : (files.map Prod.fst).Nodup

/-- What `_classify_belief_artifact` makes of a file. -/
inductive ArtifactKind
  | foreign
  | anomaly
  | record (payload : Dict Json)

/-- `value == text`. -/
def isText (text : String) : Json → Bool
  | .str s => s = text
  | _      => false

def classifyBeliefArtifact (repositoryId : String) : Option String → ArtifactKind
  | none     => .foreign
  | some raw =>
    match host.loads raw with
    | .ok (.obj artifact) =>
      if ¬ isText "belief/v1" (KnowledgeRecord.lookup artifact "extractor_version") then .foreign
      else if ¬ isText repositoryId (KnowledgeRecord.lookup artifact "repository_id") then .foreign
      else match KnowledgeRecord.lookup artifact "text" with
        | .str text =>
          match host.loads text with
          | .ok (.obj payload) =>
            if ¬ isText "aio" (KnowledgeRecord.lookup payload "actor") then .anomaly
            else if ¬ isText (aioAclScope repositoryId) (KnowledgeRecord.lookup payload "scope") then
              .anomaly
            else .record payload
          | _ => .anomaly
        | _ => .anomaly
    | _ => .foreign

/-- A version of a belief: its id and its payload. -/
abbrev Version := String × Dict Json

def scanBeliefPayloads (repositoryId : String) (dir : ArtifactDir) : List Version × List String :=
  let files := sortBy (fun file => file.1 ++ ".json") dir.files
  (files.filterMap fun file =>
    match classifyBeliefArtifact host repositoryId file.2 with
    | .record payload => some (file.1, payload)
    | _               => none,
  files.filterMap fun file =>
    match classifyBeliefArtifact host repositoryId file.2 with
    | .anomaly => some (file.1 ++ ".json: a belief/v1 artifact that is not a readable AIO org-root " ++
        "belief record — excluded from the belief index")
    | _        => none)

def locator (v : Version) : String :=
  beliefId host (textOf host v.2 "domain") (textOf host v.2 "hypothesis")

/-- Where a version stands among those of its belief. -/
def rank (v : Version) : String ×ₗ String := toLex (textOf host v.2 "last_updated", v.1)

/-- The dictionary `latest` of `belief_index`. -/
def latestVersions (repositoryId : String) (dir : ArtifactDir) : Dict Version :=
  Versions.latest (locator host) (rank host) (scanBeliefPayloads host repositoryId dir).1

def beliefIndex (repositoryId : String) (dir : ArtifactDir) : List Version × List String :=
  (sortBy Prod.fst ((latestVersions host repositoryId dir).map Prod.snd),
    (scanBeliefPayloads host repositoryId dir).2)

/-! ### The trigger -/

/-- A call of `apply_wave_verdict`. The clock is read twice for each new version; the version it
supersedes tells the readings apart. -/
structure VerdictCall where
  verdictPayload : Dict Json
  observedAt : Option String := none
  signalFn : Option (Dict Json → Dict Json → String) := none
  clock : String → String × String

/-- A new version, and the version it supersedes. -/
structure Update where
  current : Version
  signal : Signal
  body : BeliefBody
  record : KnowledgeRecord

inductive Consultation
  | unrelated
  | alreadyCounted
  | updated (u : Update)

def Consultation.isUnrelated : Consultation → Bool
  | unrelated => true
  | _         => false

def Consultation.isCounted : Consultation → Bool
  | alreadyCounted => true
  | _              => false

def VerdictCall.signal (call : VerdictCall) (fields : VerdictFields) (payload : Dict Json) : String :=
  call.signalFn.elim (verdictSignal fields.verdict) fun f => f payload call.verdictPayload

/-- The body of the loop of `apply_wave_verdict`. -/
def consult (repositoryId : String) (call : VerdictCall) (fields : VerdictFields) (v : Version) :
    Except BeliefError Consultation := do
  if ¬ (← citesWave host v.2 fields.specName fields.runId) then return .unrelated
  else if ← alreadyCounts host v.2 fields.runId then return .alreadyCounted
  else
    let name := call.signal fields v.2
    match Signal.ofName? name with
    | none =>
      .error (.value ("signal_fn returned " ++ host.quote name ++ " for " ++ fields.specName ++ " (" ++
        fields.runId ++ ") — must be one of ('confirm', 'disconfirm')"))
    | some signal =>
      let (body, record) ← versionRecord host v.2 (some v.1) signal
        (some (outcomeCitation fields.specName fields.runId)) repositoryId call.observedAt
        (call.clock v.1)
      return .updated ⟨v, signal, body, record⟩

def updatesOf (consultations : List Consultation) : List Update :=
  consultations.filterMap fun c =>
    match c with
    | .updated u => some u
    | _          => none

structure BeliefUpdateResult where
  specName : String
  runId : String
  consulted : ℕ
  bearing : ℕ
  updates : List Update
  alreadyCounted : ℕ
  unrelated : ℕ
  warnings : List String

def applyWaveVerdict (repositoryId : String) (call : VerdictCall) (dir : ArtifactDir) :
    Except BeliefError BeliefUpdateResult := do
  let fields ← verdictFields host call.verdictPayload
  let (current, warnings) := beliefIndex host repositoryId dir
  let consultations ← current.mapM (consult host repositoryId call fields)
  let updates := updatesOf consultations
  let unrelated := consultations.countP Consultation.isUnrelated
  return {
    specName := fields.specName
    runId := fields.runId
    consulted := current.length
    bearing := consultations.length - unrelated
    updates := updates
    alreadyCounted := consultations.countP Consultation.isCounted
    unrelated := unrelated
    warnings := warnings }

end Derivation

end AgenticDynamics.Knowledge.Beliefs
