import AgenticDynamics.Experiment.SpecDocument

/-!
# The status of a spec

What the run ledgers of a spec say about its current revision. Runs that continue one another are
one family; the newest family with a verdict decides.
-/

namespace AgenticDynamics.Experiment.SpecStatus

open Python AgenticDynamics.Experiment.Loaded

section Status

variable (host : Host)

/-- `datetime.strptime(text, format)`; none stands for its `ValueError`. -/
abbrev Strptime := String → String → Option DateTime

/-! ### Ledgers -/

/-- `RunSummary`; its times are kept as the instants they stand for. -/
structure RunSummary where
  path : String
  timestamp : Option Instant := none
  ok : Option Bool := none
  model : Option String := none
  costUsd : Option PyFloat := none
  gitSha : Option String := none
  workflowRevisionId : String := ""
  executedPhases : Finset String := ∅
  planExpansion : Option (Dict Json) := none
  runId : String := ""
  parentRunId : String := ""
  familyId : String := ""
  awaiting : Bool := false
  startedAt : Option Instant := none
  isOpen : Bool := false

/-- `moment.astimezone(timezone.utc)`, a naive moment counting as UTC. -/
def inUtc (moment : DateTime) : Except String Instant :=
  if 0 ≤ moment.micros ∧ moment.micros ≤ maxInstant then .ok moment.micros.toNat
  else .error "OverflowError"

/-- The part of a file name before its identity suffix. -/
def stampOf (stem : String) : String :=
  String.ofList ((stem.toList.takeWhile (· ≠ '_')).takeWhile (· ≠ '.'))

def parseTimestamp (strptime : Strptime) (text : Option Json) : Except String (Option Instant) :=
  match text with
  | none       => .ok none
  | some value =>
    let raw := strip (value.text host.toRuntime)
    if value.truthy = false ∨ raw = "" then .ok none
    else
      let zoned := String.ofList (raw.toList.flatMap fun c =>
        if c = 'Z' then "+00:00".toList else [c])
      let moment := (host.fromisoformat zoned).orElse fun _ =>
        (strptime (stampOf raw) "%Y%m%dT%H%M%SZ").orElse fun _ =>
          strptime (stampOf raw) "%Y%m%dT%H%M%S%fZ"
      match moment with
      | none        => .ok none
      | some moment => (inUtc moment).map some

/-- `str(payload.get(key) or "")`. -/
def textOrEmpty (payload : Dict Json) (key : String) : String :=
  (Json.orElse (Dict.get? key payload) (.str "")).text host.toRuntime

/-- `str(payload[key]) if payload.get(key) else None`. -/
def textOrNone (payload : Dict Json) (key : String) : Option String :=
  ((Dict.get? key payload).filter (·.truthy)).map (·.text host.toRuntime)

/-- The names under a key of the objects among the items, those that are true. -/
def namesUnder (key : String) (items : List Json) : List String :=
  items.filterMap fun item =>
    match item with
    | .obj fields => textOrNone host fields key
    | _           => none

/-- `payload.get(key) or []`, iterated. -/
def itemsOrEmpty (payload : Dict Json) (key : String) : Except String (List Json) :=
  (Json.orElse (Dict.get? key payload) (.arr [])).toList

/-- `summarize_run`; `path` is relative to the root and `stem` its name. -/
def summarizeRun (strptime : Strptime) (path stem : String) (payload : Dict Json) :
    Except String RunSummary := do
  let ended ← parseTimestamp host strptime (Dict.get? "ended_at" payload)
  let started ← parseTimestamp host strptime (Dict.get? "started_at" payload)
  let moment ← match ended.orElse fun _ => started with
    | some moment => Except.ok (some moment)
    | none        => parseTimestamp host strptime (some (.str stem))
  let costUsd ← match Dict.get? "total_cost_usd" payload with
    | some (.bool b)  => (Json.toFloat host.toRuntime (.bool b)).map some
    | some (.int n)   => (Json.toFloat host.toRuntime (.int n)).map some
    | some (.float x) => (Json.toFloat host.toRuntime (.float x)).map some
    | _               => .ok none
  let phases ← itemsOrEmpty payload "phases"
  .ok
    { path
      timestamp := moment
      ok := match Dict.get? "ok" payload with
        | some (.bool b) => some b
        | _              => none
      model := textOrNone host payload "model"
      costUsd
      gitSha := textOrNone host payload "git_sha"
      workflowRevisionId := textOrEmpty host payload "workflow_revision_id"
      executedPhases := (namesUnder host "phase" phases).toFinset
      planExpansion := match Dict.get? "plan_expansion" payload with
        | some (.obj record) => some record
        | _                  => none
      runId := textOrEmpty host payload "run_id"
      parentRunId := textOrEmpty host payload "parent_run_id"
      familyId := textOrEmpty host payload "family_id"
      awaiting := match Dict.get? "awaiting" payload with
        | some (.bool b) => b
        | _              => false
      startedAt := started
      isOpen := ended.isNone && started.isSome }

/-! ### What a run executed -/

/-- `plan_expansion or {}`. -/
def RunSummary.record (run : RunSummary) : Dict Json := run.planExpansion.getD []

def RunSummary.basePhase (run : RunSummary) : String := textOrEmpty host run.record "base_phase"

def RunSummary.generated (run : RunSummary) : Except String (Finset String) :=
  (itemsOrEmpty run.record "phases").map fun items =>
    (items.map (·.text host.toRuntime)).toFinset

def executedWithExpansions (run : RunSummary) : Except String (Finset String) := do
  let generated ← run.generated host
  let base := run.basePhase host
  .ok (if base ≠ "" ∧ generated ≠ ∅ ∧ generated ⊆ run.executedPhases then
    insert base (run.executedPhases \ generated) else run.executedPhases)

def specPhaseNames (spec : ExperimentSpec Json) : Except String (List String) := do
  let params ← match spec.workflow.params with
    | .obj params => Except.ok params
    | _           => .error "AttributeError"
  let phases ← itemsOrEmpty params "phases"
  .ok (namesUnder host "name" phases)

/-! ### Families -/

/-- What the runs of a family share; a run without a family is alone. -/
def familyKey (run : RunSummary) (index : ℕ) : String :=
  if run.familyId = "" then "\x00self:" ++ toString index else run.familyId

/-- The members so far and the index of the newest, under every key in the order of its first. -/
abbrev Buckets := Dict (List RunSummary × ℕ)

def addRun (buckets : Buckets) (entry : RunSummary × ℕ) : Buckets :=
  let key := familyKey entry.1 entry.2
  let members := ((Dict.get? key buckets).map (·.1)).getD []
  Dict.set key (members ++ [entry.1], entry.2) buckets

/-- `_certifying_families`: the newest first. -/
def certifyingFamilies (certifying : List RunSummary) : List (List RunSummary) :=
  ((certifying.zipIdx.foldl addRun []).mergeSort fun a b => b.2.2 ≤ a.2.2).map (·.2.1)

def familyExecutedUnion (family : List RunSummary) : Except String (Finset String) :=
  family.foldlM (fun union run => (executedWithExpansions host run).map (union ∪ ·)) ∅

/-- Ok is false, and it was no designed stop. -/
def RunSummary.failed (run : RunSummary) : Bool := run.ok = some false && !run.awaiting

def familyStatus (spec : ExperimentSpec Json) (family : List RunSummary) :
    Except String (Option String) :=
  if family.any (·.failed) then .ok (some "failed")
  else if (family.getLast?.bind (·.ok)) ≠ some true then .ok none
  else do
    let fullPhases ← specPhaseNames host spec
    let union ← familyExecutedUnion host family
    .ok (if fullPhases.toFinset ⊆ union then some "completed" else none)

/-- The scan of `_newest_decisive_family_status`. -/
def firstDecisive (spec : ExperimentSpec Json) :
    List (List RunSummary) → Except String (Option String)
  | []                 => .ok none
  | family :: families => do
    match ← familyStatus host spec family with
    | some status => .ok (some status)
    | none        => firstDecisive spec families

def newestDecisiveFamilyStatus (spec : ExperimentSpec Json) (certifying : List RunSummary) :
    Except String (Option String) :=
  firstDecisive host spec (certifyingFamilies certifying)

/-! ### The revision -/

def isDefinitionChangedAfterRuns (spec : ExperimentSpec Json) (runs : List RunSummary) :
    Except String Bool := do
  let specPhases ← specPhaseNames host spec
  if specPhases = [] ∨ runs.all (·.ok ≠ some true) then .ok false
  else do
    let executed ← familyExecutedUnion host runs
    if executed = ∅ then .ok false
    else if executed \ specPhases.toFinset ≠ ∅ then .ok true
    else .ok (executed = specPhases.dropLast.toFinset)

/-- `_runs_of_current_revision`; `digest` is the spec's `workflow_revision_id`. -/
def runsOfCurrentRevision (spec : ExperimentSpec Json) (digest : String)
    (runs : List RunSummary) : Except String (List RunSummary × Bool) :=
  if runs = [] then .ok ([], false)
  else
    let recorded := runs.filter (·.workflowRevisionId ≠ "")
    if recorded ≠ [] then
      let certifying := recorded.filter (·.workflowRevisionId = digest)
      .ok (certifying, certifying.isEmpty)
    else do
      if ← isDefinitionChangedAfterRuns host spec runs then .ok ([], true) else .ok (runs, false)

/-- `_is_currently_running`; the window in microseconds. -/
def isCurrentlyRunning (now : Instant) (window : ℤ) (runs : List RunSummary) : Bool :=
  runs.any fun run => run.isOpen &&
    match run.startedAt.orElse fun _ => run.timestamp with
    | some start => ((now : ℤ) - start ≤ window : Bool)
    | none       => false

/-- `a or b` of two texts. -/
def firstText (a b : String) : String := if a = "" then b else a

def deriveStatus (spec : ExperimentSpec Json) (digest : String) (now : Instant) (window : ℤ)
    (runs : List RunSummary) : Except String String :=
  if spec.status = "draft" ∨ spec.status = "tombstoned" then .ok spec.status
  else if (spec.supersededBy.getD "") ≠ "" then .ok "superseded"
  else if spec.repeatable then .ok (firstText spec.status "runnable")
  else do
    let (certifying, changed) ← runsOfCurrentRevision host spec digest runs
    if isCurrentlyRunning now window certifying then return "running"
    if (certifying.getLast?.map (·.awaiting)).getD false then return "awaiting_approval"
    match ← newestDecisiveFamilyStatus host spec certifying with
    | some decisive => return decisive
    | none          =>
      if certifying ≠ [] then return "blocked"
      if changed then return "runnable"
      if runs = [] then return firstText spec.status "runnable"
      return "runnable"

end Status

end AgenticDynamics.Experiment.SpecStatus
