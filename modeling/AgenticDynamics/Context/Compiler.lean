import Mathlib.Data.List.MinMax
import AgenticDynamics.Context.Requirements

/-!
# The context compiler

`compile_context` resolves every requirement of a contract against the store and freezes what it
found: the citable facts, what is unknown, conflicted or stale, and whether the decision may be
made at all.
-/

namespace AgenticDynamics.Context

open Python

/-! ### Scopes -/

/-- `parse_scope_path`: the segments with a colon, root first. -/
def parseScopePath (path : String) : List (String × String) :=
  ((split '/' path).filter fun seg => ':' ∈ seg.toList).map (partition ':')

/-- `"/".join(f"{k}:{v}" for k, v in segments)`. -/
def renderScope (segments : List (String × String)) : String :=
  "/".intercalate (segments.map fun kv => kv.1 ++ ":" ++ kv.2)

/-- `_parent_scope_path`; a lone `run` segment has no leaf to look at. -/
def parentScopePath (segments : List (String × String)) :
    Except ContextError (Option String) :=
  let leaves := match segments.getLast? with
    | some ("run", _) => segments.dropLast
    | _               => segments
  match segments, leaves.getLast? with
  | [], _                   => .ok none
  | _, none                 => .error (.index "list index out of range")
  | _, some ("attempt", _)  => .ok (some (renderScope leaves.dropLast))
  | _, some ("job", leafId) =>
    .ok (some (renderScope leaves.dropLast ++ "/workflow:" ++ leafId))
  | _, some _               =>
    .ok (if leaves.length ≤ 1 then none else some (renderScope leaves.dropLast))

/-- The path up to the first segment of a type. -/
def ancestorPath (scopeType : String) (segments : List (String × String)) : Option String :=
  if segments.any fun kv => kv.1 = scopeType then
    some (renderScope (segments.takeWhile (·.1 ≠ scopeType) ++
      (segments.dropWhile (·.1 ≠ scopeType)).take 1))
  else none

def resolveRequirementScope (requirementScope decisionScopePath : String) :
    Except ContextError (Option String) :=
  if requirementScope = "self" then .ok (some decisionScopePath)
  else if requirementScope = "parent" then parentScopePath (parseScopePath decisionScopePath)
  else .ok (ancestorPath requirementScope (parseScopePath decisionScopePath))

def isAncestor (ancestor path : String) : Bool := path = ancestor ∨ startsWith path (ancestor ++ "/")

def scopeVisible (requested factScope : String) (predicate : Option PredicateSpec) : Bool :=
  if requested = "" ∨ factScope = "" then false
  else if requested = factScope then true
  else if isAncestor factScope requested then
    predicate.any fun spec => spec.inheritable ∨ spec.abstractionLevel = "policy"
  else false

/-! ### References -/

structure FactRef where
  factId : String
  predicate : String
  subjectId : String
  scopePath : String
  value : String
  valueType : String
  authority : String
  epistemicStatus : String
  observedAt : String
  ageSeconds : ℤ
  reducerVersion : String
  evidenceIds : List String
  deriving DecidableEq

structure Unknown where
  predicate : String
  scope : String
  reason : String
  handling : String
  deriving DecidableEq

structure Conflict where
  predicate : String
  scope : String
  candidates : List FactRef
  handling : String
  deriving DecidableEq

structure StaleFact where
  fact : FactRef
  scope : String
  reason : String
  handling : String
  deriving DecidableEq

/-- `_Resolution`: what became of one requirement. -/
inductive Resolution
  | factRef (ref : FactRef)
  | unknown (u : Unknown)
  | conflict (c : Conflict)
  | stale (s : StaleFact)
  deriving DecidableEq

section Resolve

variable (host : Host) (now : String)

/-- `_age_seconds`: an age that cannot be read is none at all. -/
def ageSeconds (observedAt : String) : Except ContextError ℤ :=
  match host.fromisoformat observedAt, host.fromisoformat now with
  | some obs, some cur =>
    match cur.sub obs with
    | some micros => .ok (max 0 (micros.tdiv 1000000))
    | none        => .error (.type "can't subtract offset-naive and offset-aware datetimes")
  | _, _ => .ok 0

def toFactRef (fact : CanonicalFact) : Except ContextError FactRef := do
  let age ← ageSeconds host now fact.observedAt
  return {
    factId := fact.factId
    predicate := fact.predicate
    subjectId := fact.subjectId
    scopePath := fact.scopePath
    value := fact.value
    valueType := fact.valueType
    authority := fact.authority.name
    epistemicStatus := fact.epistemicStatus
    observedAt := fact.observedAt
    ageSeconds := age
    reducerVersion := fact.reducerVersion
    evidenceIds := fact.evidenceIds }

/-! ### One requirement -/

section Requirement

variable (decisionScopePath : String) (store : FactStore) (req : FactRequirement)

/-- The facts that are visible from the target scope. -/
def visibleFacts (target : String) : List CanonicalFact :=
  (store.currentFacts req.fact).filter fun f =>
    scopeVisible target f.scopePath (predicateSpec? req.fact)

/-- The facts strictly below the decision. -/
def descendants : List CanonicalFact :=
  (store.currentFacts req.fact).filter fun f => startsWith f.scopePath (decisionScopePath ++ "/")

/-- What may fill the slot: the visible facts, or, for the decision's own scope, the descendant
observed last (the first of them, where several were). -/
def candidates (target : String) : List CanonicalFact :=
  if visibleFacts store req target = [] ∧ req.scope = "self" then
    ((descendants decisionScopePath store req).argmax CanonicalFact.observedAt).toList
  else visibleFacts store req target

/-- The facts of the smallest entity, by id. -/
def slotGroup (candidates : List CanonicalFact) : List CanonicalFact :=
  match (candidates.map CanonicalFact.factEntityId).min? with
  | none        => []
  | some entity => (candidates.filter fun f => f.factEntityId = entity).insertionSort
      fun f g => f.factId ≤ g.factId

/-- The requirement is not satisfied, for a reason. -/
def unknownFor (reason : String) : Resolution :=
  .unknown { predicate := req.fact, scope := req.scope, reason, handling := req.onMissing }

/-- The reference is older than the requirement allows. -/
def tooOld (ref : FactRef) : Bool := req.maxAgeSeconds.any fun m => m < ref.ageSeconds

/-- A fact of sufficient standing, once its age is known. -/
def admitRef (ref : FactRef) : Resolution :=
  if tooOld req ref then
    .stale { fact := ref, scope := req.scope, reason := "max_age_exceeded",
             handling := req.onMissing }
  else .factRef ref

/-- What the requirement makes of the facts of its slot, the first of which is `fact`. -/
def judge (fact : CanonicalFact) (group : List CanonicalFact) : Except ContextError Resolution :=
  match factState now store fact with
  | .conflicted => do
    let candidates ← group.mapM (toFactRef host now)
    return .conflict { predicate := req.fact, scope := req.scope, candidates,
                       handling := req.onConflict }
  | .tombstoned | .superseded => .ok (unknownFor req "no_fact")
  | .stale => do
    let ref ← toFactRef host now fact
    return .stale { fact := ref, scope := req.scope, reason := "cascade",
                    handling := req.onMissing }
  | .current =>
    if verifyChain host fact store.resolve ≠ [] then .ok (unknownFor req "broken_chain")
    else if fact.authority < req.floor then .ok (unknownFor req "below_min_authority")
    else (toFactRef host now fact).map (admitRef req)

def resolveRequirement : Except ContextError Resolution := do
  match ← resolveRequirementScope req.scope decisionScopePath with
  | none        => return unknownFor req "out_of_scope"
  | some target =>
    let group := slotGroup (candidates decisionScopePath store req target)
    match group with
    | []        => return unknownFor req "no_fact"
    | fact :: _ => judge host now store req fact group

end Requirement

end Resolve

/-! ### The whole contract -/

/-- What a requirement does when it gets no fact. -/
def handling (req : FactRequirement) : Resolution → Option String
  | .factRef _  => none
  | .conflict _ => some req.onConflict
  | _           => some req.onMissing

/-- `halt` and `escalate` refuse the decision. -/
def blocks (handling : String) : Bool := handling = "halt" ∨ handling = "escalate"

abbrev Resolved := FactRequirement × Resolution

namespace Resolved

def ref? (r : Resolved) : Option FactRef :=
  match r.2 with | .factRef ref => some ref | _ => none

def unknown? (r : Resolved) : Option Unknown :=
  match r.2 with | .unknown u => some u | _ => none

def conflict? (r : Resolved) : Option Conflict :=
  match r.2 with | .conflict c => some c | _ => none

def stale? (r : Resolved) : Option StaleFact :=
  match r.2 with | .stale s => some s | _ => none

/-- The part of the refusal a requirement contributes. -/
def refusal? (r : Resolved) : Option String :=
  (handling r.1 r.2).bind fun h =>
    if blocks h then some (r.1.fact ++ " (" ++ r.1.scope ++ "): " ++ h) else none

/-- The bucket of a requirement is the scope type of its predicate, or `job`. -/
def bucket (r : Resolved) : String :=
  let scopeType := ((predicateSpec? r.1.fact).map PredicateSpec.scopeType).getD "job"
  if scopeType ∈ ["workload", "workflow", "job", "resource"] then scopeType else "job"

end Resolved

structure ContextRequest where
  decisionType : String
  scopeType : String
  scopePath : String

structure ControlContext where
  snapshotId : String
  decisionType : String
  contractVersion : String
  scopePath : String
  compiledAt : String
  invariants : List FactRef
  workload : List FactRef
  workflow : List FactRef
  job : List FactRef
  resource : List FactRef
  unknowns : List Unknown
  conflicts : List Conflict
  stale : List StaleFact
  advisory : List FactRef
  evidenceIds : List String
  admissible : Bool
  refusal : String
  deriving DecidableEq

/-- `_all_canonical_refs`: every citable fact. -/
def ControlContext.citable (ctx : ControlContext) : List FactRef :=
  ctx.invariants ++ ctx.workload ++ ctx.workflow ++ ctx.job ++ ctx.resource

def computeSnapshotId (host : Host) (contractVersion decisionType scopePath : String)
    (factIds : List String) (unknowns : List Unknown) (conflicts : List Conflict)
    (stale : List StaleFact) : String :=
  host.sha256 ("|".intercalate [contractVersion, decisionType, scopePath,
    "|".intercalate factIds,
    host.dumps (.arr (unknowns.map fun u =>
      .arr [.str u.predicate, .str u.scope, .str u.reason, .str u.handling])),
    host.dumps (.arr (conflicts.map fun c => .arr [.str c.predicate, .str c.scope,
      .arr (((c.candidates.map FactRef.factId).insertionSort (· ≤ ·)).map .str)])),
    host.dumps (.arr (stale.map fun s => .arr [.str s.fact.factId, .str s.scope, .str s.reason]))])

section Compile

variable (host : Host) (now : String) (store : FactStore)

/-- The requirements in their order, each with what became of it. -/
def resolveAll (decisionScopePath : String) (reqs : List FactRequirement) :
    Except ContextError (List Resolved) :=
  reqs.mapM fun req => do return (req, ← resolveRequirement host now decisionScopePath store req)

/-- The advisory facts a requirement would see. -/
def advisoryFor (decisionScopePath : String) (req : FactRequirement) :
    Except ContextError (List FactRef) := do
  match ← resolveRequirementScope req.scope decisionScopePath with
  | none        => return []
  | some target =>
    ((visibleFacts store req target).filter fun f => f.epistemicStatus = "advisory").mapM
      (toFactRef host now)

/-- `sorted(evidence)`: the ids of the citable facts and of their evidence, as a set. -/
def evidenceOf (resolved : List Resolved) : List String :=
  ((resolved.filterMap Resolved.ref?).flatMap fun ref =>
    ref.factId :: ref.evidenceIds).dedup.insertionSort (· ≤ ·)

/-- The snapshot of a contract's resolved invariants and required facts. -/
def snapshot (request : ContextRequest) (contract : ContractSpec)
    (invariants required : List Resolved) (advisory : List FactRef) : ControlContext :=
  let all := invariants ++ required
  let bucket (name : String) : List FactRef :=
    (required.filter fun r => r.bucket = name).filterMap Resolved.ref?
  let unknowns := all.filterMap Resolved.unknown?
  let conflicts := all.filterMap Resolved.conflict?
  let stale := all.filterMap Resolved.stale?
  let refusals := all.filterMap Resolved.refusal?
  { snapshotId := computeSnapshotId host contract.contractVersion contract.decisionType
      request.scopePath (evidenceOf all) unknowns conflicts stale
    decisionType := contract.decisionType
    contractVersion := contract.contractVersion
    scopePath := request.scopePath
    compiledAt := now
    invariants := invariants.filterMap Resolved.ref?
    workload := bucket "workload"
    workflow := bucket "workflow"
    job := bucket "job"
    resource := bucket "resource"
    unknowns, conflicts, stale, advisory
    evidenceIds := evidenceOf all
    admissible := refusals.isEmpty
    refusal := "; ".intercalate refusals }

/-- `compile_context` with a loaded contract. -/
def compileContext (request : ContextRequest) (contract : ContractSpec)
    (challenge : Option ChallengeProfile) : Except ContextError ControlContext := do
  if request.scopeType ≠ contract.decisionScope then
    throw (.value ("contract " ++ host.quote contract.decisionType ++ " is scoped at " ++
      host.quote contract.decisionScope ++ "; request is scoped at " ++
      host.quote request.scopeType))
  let effective ← composeRequirements host contract challenge
  let invariants ← resolveAll host now store request.scopePath contract.invariants
  let required ← resolveAll host now store request.scopePath effective
  let advisory ← effective.mapM (advisoryFor host now store request.scopePath)
  return snapshot host now request contract invariants required advisory.flatten

end Compile

/-! ### The routing decision -/

/-- `experiments/contexts/route_next_job.yaml`. -/
def routeNextJob : ContractSpec where
  decisionType := "route_next_job"
  contractVersion := "route_next_job/v1"
  allowedActions := ["route", "continue"]
  maxSnapshotAgeSeconds := some 300
  invariants :=
    [{ fact := "allowed_models", scope := "workload" },
      { fact := "max_spend_usd", scope := "workload" }]
  requiresFacts :=
    [{ fact := "job_accumulated_cost_usd", maxAgeSeconds := some 600, minAuthority := "MEASURED"
       onMissing := "classify" },
      { fact := "workflow_phases_remaining", scope := "parent", maxAgeSeconds := some 600 },
      { fact := "phase_test_verified", maxAgeSeconds := some 3600, minAuthority := "MEASURED"
        onMissing := "classify" }]
  excludes := ["sibling_job_facts", "live_telemetry", "advisory_facts"]

def routeRequest : ContextRequest where
  decisionType := "route_next_job"
  scopeType := "job"
  scopePath := "org:r/workload:w/job:c"

/-- One o'clock on the first of January 2026, and times before it. -/
def oneOClock : String := "2026-01-01T01:00:00+00:00"

/-- The digests of derivations without evidence, and the stamps of the facts below. -/
def routeHost : Host :=
  tableHost
    [("policy_facts/v1", "316d0e17f0669a3c00d8e2ca7b7fb67986bad51e1e556974761351a305bb6700"),
      ("workflow_facts/v1", "f5f83378ca705d878f00b6eb0fc99f0ae5b0051193a988f881eb1769eb3fbb69"),
      ("job_facts/v1", "b2c0d96ad0f4aacc453651512168c5390c132f14ccdfa7b2d717ffa11345e47a"),
      ("attempt_facts/v1", "b8e4faf6f23858b9b9dacec582f900704addd86041201c36783226ee641a4341")]
    [("2026-01-01T00:40:00+00:00", ⟨63902824800000000, true⟩),
      ("2026-01-01T00:59:00+00:00", ⟨63902825940000000, true⟩),
      ("2026-01-01T01:00:00+00:00", ⟨63902826000000000, true⟩)]

/-- A measured fact about the job that cites no evidence, a minute old. -/
def costFact : CanonicalFact where
  factEntityId := "e-cost"
  factId := "f-cost"
  subjectId := "c"
  predicate := "job_accumulated_cost_usd"
  value := "1.5"
  valueType := "usd"
  scopePath := "org:r/workload:w/job:c"
  abstractionLevel := "job"
  epistemicStatus := "observed"
  authority := .measured
  evidenceClass := "[M]"
  observedAt := "2026-01-01T00:59:00+00:00"
  reducerVersion := "job_facts/v1"
  evidenceIds := []
  inputsDigest := routeHost.sha256 "job_facts/v1"

def remainingFact : CanonicalFact :=
  { costFact with
    factEntityId := "e-remaining"
    factId := "f-remaining"
    predicate := "workflow_phases_remaining"
    value := "2"
    valueType := "int"
    scopePath := "org:r/workload:w/workflow:c"
    abstractionLevel := "workflow"
    epistemicStatus := "derived"
    authority := .derived
    evidenceClass := "[C]"
    reducerVersion := "workflow_facts/v1"
    inputsDigest := routeHost.sha256 "workflow_facts/v1" }

def policyFact (factId predicate value : String) : CanonicalFact :=
  { costFact with
    factEntityId := "e-" ++ predicate
    factId, predicate, value
    subjectId := "w"
    valueType := "enum-list"
    scopePath := "org:r/workload:w"
    abstractionLevel := "policy"
    epistemicStatus := "declared"
    authority := .policy
    evidenceClass := "[P]"
    reducerVersion := "policy_facts/v1"
    inputsDigest := routeHost.sha256 "policy_facts/v1" }

/-- The verdict of the tests of one run of a phase. -/
def verifiedFact (run value : String) : CanonicalFact :=
  { costFact with
    factEntityId := "e-verified-" ++ run
    factId := "f-verified-" ++ run
    predicate := "phase_test_verified"
    value
    valueType := "bool"
    scopePath := "org:r/workload:w/job:c/attempt:implement/run:" ++ run
    abstractionLevel := "fact"
    epistemicStatus := "verified"
    reducerVersion := "attempt_facts/v1"
    inputsDigest := routeHost.sha256 "attempt_facts/v1" }

/-- The policies of the workload and what is known of the job. -/
def routeFacts : List CanonicalFact :=
  [policyFact "f-allowed" "allowed_models" "anthropic/claude-opus-5,openai/gpt-6-astra",
    policyFact "f-spend" "max_spend_usd" "25.0", costFact, remainingFact]

example : (compileContext routeHost oneOClock (inMemoryFactStore routeFacts) routeRequest
    routeNextJob none).toOption.map (fun ctx =>
      (ctx.admissible, ctx.invariants.map FactRef.value, ctx.workflow.map FactRef.ageSeconds,
        ctx.unknowns.map Unknown.reason)) =
    some (true, ["anthropic/claude-opus-5,openai/gpt-6-astra", "25.0"], [60], ["no_fact"]) := by
  decide +kernel

end AgenticDynamics.Context
