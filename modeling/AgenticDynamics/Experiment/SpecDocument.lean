import AgenticDynamics.Library.Python

/-!
# Specs and the documents they are loaded from

A spec is loaded from a parsed document and written back to one. Most of its fields keep the value
that stands in the document, whatever its type; some are brought to one type, and some get a
default. The revision of a spec is the digest of what is written back, without the keys that do
not define the work.
-/

namespace AgenticDynamics.Experiment.Loaded

open Python

/-! ### Documents -/

/-- The values of a parsed document, and what the built-ins make of them. -/
structure Document (V : Type) where
  null : V
  bool : Bool → V
  str : String → V
  list : List V → V
  dict : Dict V → V
  /-- `bool(value)`. -/
  truthy : V → Bool
  /-- `str(value)`. -/
  text : V → String
  /-- `value is None`. -/
  isNone : V → Bool
  /-- The text of a value that is a string. -/
  asStr : V → Option String
  /-- `list(value)`, where the value can be iterated. -/
  items : V → Option (List V)
  /-- `value.get`, where the value is a mapping. -/
  mapping : V → Option (String → Option V)
  /-- `sorted` succeeds on the keys of the mapping that are not among the given ones. -/
  sortsOthers : List String → V → Bool
  truthy_null : truthy null = false
  truthy_str : ∀ s, truthy (str s) = (s ≠ "" : Bool)
  truthy_bool : ∀ b, truthy (bool b) = b
  truthy_list : ∀ items, truthy (list items) = !items.isEmpty
  truthy_dict : ∀ fields, truthy (dict fields) = !fields.isEmpty
  text_str : ∀ s, text (str s) = s
  text_ne_empty : ∀ value, truthy value = true → text value ≠ ""
  isNone_iff : ∀ value, isNone value = true ↔ value = null
  isNone_str : ∀ s, isNone (str s) = false
  isNone_list : ∀ items, isNone (list items) = false
  asStr_str : ∀ s, asStr (str s) = some s
  asStr_list : ∀ items, asStr (list items) = none
  items_list : ∀ values, items (list values) = some values
  mapping_dict : ∀ fields, mapping (dict fields) = some fun key => Dict.get? key fields
  asStr_dict : ∀ fields, asStr (dict fields) = none
  sortsOthers_dict : ∀ known fields, sortsOthers known (dict fields) = true

/-- The `ValueError` of a class that lacks required fields, and what the built-ins raise on values
that are no mapping or cannot be iterated. -/
inductive SpecError
  | missing (owner : String) (keys : List String)
  | mapping
  | iteration
  | ordering
  deriving DecidableEq

variable {V : Type} (D : Document V)

namespace Document

/-- `value or fallback`. -/
def orElse (value fallback : V) : V := if D.truthy value then value else fallback

def fields (document : V) : Except SpecError (String → Option V) :=
  match D.mapping document with
  | some get => .ok get
  | none     => .error .mapping

/-- The values under keys that have to be there. -/
def required (owner : String) (keys : List String) (get : String → Option V) :
    Except SpecError (String → V) :=
  match keys.filter fun key => (get key).isNone with
  | []      => .ok fun key => (get key).getD D.null
  | missing => .error (.missing owner missing)

/-- `list(value)`. -/
def iterate (value : V) : Except SpecError (List V) :=
  match D.items value with
  | some values => .ok values
  | none        => .error .iteration

def present (entries : List (String × Option V)) : Dict V :=
  entries.filterMap fun (key, value) => value.map (key, ·)

def asNameList (value : V) : Except SpecError (List String) :=
  if D.isNone value then .ok []
  else
    match D.asStr value with
    | some "" => .ok []
    | some s  => .ok [s]
    | none    => do return (← D.iterate value).map D.text

def asOptionalStr (value : V) : Option String :=
  if D.isNone value then none
  else
    let text := strip (D.text value)
    if text = "" then none else some text

/-- A value that may be `None`. -/
def ofOption (value : Option String) : V := (value.map D.str).getD D.null

end Document

/-! ### Workflows and factors -/

structure Workflow (V : Type) where
  kind : V
  params : V

def Workflow.toDict (w : Workflow V) : V := D.dict [("kind", w.kind), ("params", w.params)]

def Workflow.fromDict (document : V) : Except SpecError (Workflow V) := do
  let get ← D.fields document
  let need ← D.required "Workflow" ["kind"] get
  return {
    kind := need "kind"
    params := D.orElse ((get "params").getD (D.dict [])) (D.dict []) }

/-- `current` is null where it is not set. -/
structure Factor (V : Type) where
  name : V
  levels : List String
  active : V
  current : V

def Factor.toDict (f : Factor V) : V :=
  D.dict (Document.present [("name", some f.name), ("levels", some (D.list (f.levels.map D.str))),
    ("active", some f.active), ("current", if D.isNone f.current then none else some f.current)])

def Factor.fromDict (document : V) : Except SpecError (Factor V) := do
  let get ← D.fields document
  let need ← D.required "Factor" ["name", "levels"] get
  return {
    name := need "name"
    levels := (← D.iterate (need "levels")).map D.text
    active := (get "active").getD (D.bool true)
    current := (get "current").getD D.null }

/-! ### Rules -/

/-- The age and the type of the value are kept as they stand. -/
structure FactRequirement (V : Type) where
  fact : String
  scope : String
  maxAgeSeconds : V
  minAuthority : String
  onMissing : String
  onConflict : String
  valueType : V

def FactRequirement.toDict (r : FactRequirement V) : V :=
  D.dict [("fact", D.str r.fact), ("scope", D.str r.scope), ("max_age_seconds", r.maxAgeSeconds),
    ("min_authority", D.str r.minAuthority), ("on_missing", D.str r.onMissing),
    ("on_conflict", D.str r.onConflict), ("value_type", r.valueType)]

def FactRequirement.fromDict (document : V) : Except SpecError (FactRequirement V) := do
  let get ← D.fields document
  let need ← D.required "FactRequirement" ["fact"] get
  return {
    fact := D.text (need "fact")
    scope := D.text ((get "scope").getD (D.str "self"))
    maxAgeSeconds := (get "max_age_seconds").getD D.null
    minAuthority := D.text ((get "min_authority").getD (D.str "DERIVED"))
    onMissing := D.text ((get "on_missing").getD (D.str "halt"))
    onConflict := D.text ((get "on_conflict").getD (D.str "halt"))
    valueType := (get "value_type").getD D.null }

/-- A bare name stands for the requirement with all defaults. -/
def normalizeRequirement (entry : V) : Except SpecError (FactRequirement V) :=
  match D.asStr entry with
  | some fact =>
    .ok {
      fact := fact
      scope := "self"
      maxAgeSeconds := D.null
      minAuthority := "DERIVED"
      onMissing := "halt"
      onConflict := "halt"
      valueType := D.null }
  | none      => FactRequirement.fromDict D entry

structure RuleSpec (V : Type) where
  name : V
  plane : V
  evidenceClass : V
  requires : List V
  produces : List V
  requiresFacts : List (FactRequirement V)
  decisionType : String

def RuleSpec.toDict (r : RuleSpec V) : V :=
  D.dict [("name", r.name), ("plane", r.plane), ("evidence_class", r.evidenceClass),
    ("requires", D.list r.requires), ("produces", D.list r.produces),
    ("requires_facts", D.list (r.requiresFacts.map (FactRequirement.toDict D))),
    ("decision_type", D.str r.decisionType)]

/-- `d.get(key, []) or []`, iterated. -/
def Document.listUnder (get : String → Option V) (key : String) : Except SpecError (List V) :=
  D.iterate (D.orElse ((get key).getD (D.list [])) (D.list []))

def RuleSpec.fromDict (document : V) : Except SpecError (RuleSpec V) := do
  let get ← D.fields document
  let need ← D.required "RuleSpec" ["name", "plane", "evidence_class"] get
  return {
    name := need "name"
    plane := need "plane"
    evidenceClass := need "evidence_class"
    requires := ← D.listUnder get "requires"
    produces := ← D.listUnder get "produces"
    requiresFacts := ← (← D.listUnder get "requires_facts").mapM (normalizeRequirement D)
    decisionType := D.text (D.orElse ((get "decision_type").getD (D.str "")) (D.str "")) }

/-! ### Metrics, comparison and writeup -/

structure MetricSpec (V : Type) where
  name : V
  agg : V
  over' : V

def MetricSpec.toDict (m : MetricSpec V) : V :=
  D.dict [("name", m.name), ("agg", m.agg), ("over", m.over')]

def MetricSpec.fromDict (document : V) : Except SpecError (MetricSpec V) := do
  let get ← D.fields document
  let need ← D.required "MetricSpec" ["name", "agg", "over"] get
  return { name := need "name", agg := need "agg", over' := need "over" }

structure ComparisonSpec (V : Type) where
  kind : V
  armFactor : V
  loss : V

def ComparisonSpec.toDict (c : ComparisonSpec V) : V :=
  D.dict [("kind", c.kind), ("arm_factor", c.armFactor), ("loss", c.loss)]

def ComparisonSpec.fromDict (document : V) : Except SpecError (ComparisonSpec V) := do
  let get ← D.fields document
  let need ← D.required "ComparisonSpec" ["kind", "arm_factor"] get
  return {
    kind := need "kind"
    armFactor := need "arm_factor"
    loss := D.orElse ((get "loss").getD (D.dict [])) (D.dict []) }

structure WriteupSpec (V : Type) where
  format : V
  sections : List V

def WriteupSpec.toDict (w : WriteupSpec V) : V :=
  D.dict [("format", w.format), ("sections", D.list w.sections)]

def WriteupSpec.fromDict (document : V) : Except SpecError (WriteupSpec V) := do
  let get ← D.fields document
  let need ← D.required "WriteupSpec" ["format"] get
  return { format := need "format", sections := ← D.listUnder get "sections" }

/-! ### Stop, adapt and side effects -/

structure StopSpec (V : Type) where
  budgetUsd : V
  maxAttempts : V
  uncertaintyThreshold : V

def StopSpec.toDict (s : StopSpec V) : V :=
  D.dict [("budget_usd", s.budgetUsd), ("max_attempts", s.maxAttempts),
    ("uncertainty_threshold", s.uncertaintyThreshold)]

def StopSpec.fromDict (document : V) : Except SpecError (StopSpec V) := do
  let get ← D.fields document
  return {
    budgetUsd := (get "budget_usd").getD D.null
    maxAttempts := (get "max_attempts").getD D.null
    uncertaintyThreshold := (get "uncertainty_threshold").getD D.null }

structure AdaptSpec (V : Type) where
  strategy : V
  selection : V

def AdaptSpec.toDict (a : AdaptSpec V) : V :=
  D.dict [("strategy", a.strategy), ("selection", a.selection)]

def AdaptSpec.fromDict (document : V) : Except SpecError (AdaptSpec V) := do
  let get ← D.fields document
  return {
    strategy := (get "strategy").getD (D.str "manual")
    selection := (get "selection").getD (D.str "highest_regret") }

structure SideEffects where
  repository : Bool
  externalServices : Bool

def SideEffects.toDict (s : SideEffects) : V :=
  D.dict [("repository", D.bool s.repository), ("external_services", D.bool s.externalServices)]

def SideEffects.fromDict (document : V) : Except SpecError SideEffects := do
  let get ← D.fields (D.orElse document (D.dict []))
  return {
    repository := D.truthy ((get "repository").getD (D.bool false))
    externalServices := D.truthy ((get "external_services").getD (D.bool false)) }

/-! ### Specs -/

structure ExperimentSpec (V : Type) where
  name : V
  question : V
  version : V
  workflow : Workflow V
  factors : List (Factor V)
  design : V
  rules : List (RuleSpec V)
  metrics : List (MetricSpec V)
  comparison : Option (ComparisonSpec V)
  writeup : Option (WriteupSpec V)
  stop : StopSpec V
  adapt : AdaptSpec V
  gitSha : V
  pricingVersion : V
  seed : V
  artifactKind : String
  intent : String
  sideEffects : SideEffects
  repeatable : Bool
  sandboxed : Bool
  status : String
  supersedes : List String
  supersededBy : Option String
  completedAt : Option String
  lastRunAt : Option String
  resultsPointer : Option String

def specKeys : List String :=
  ["name", "question", "version", "workflow", "factors", "design", "rules", "metrics",
    "comparison", "writeup", "stop", "adapt", "git_sha", "pricing_version", "seed", "status",
    "supersedes", "superseded_by", "completed_at", "last_run_at", "results_pointer",
    "artifact_kind", "intent", "side_effects", "repeatable", "sandboxed"]

namespace ExperimentSpec

/-- The entries of `to_dict` before those with no value are left out. -/
def entries (s : ExperimentSpec V) : List (String × Option V) :=
  [("name", some s.name),
    ("question", some s.question),
    ("version", some s.version),
    ("workflow", some (s.workflow.toDict D)),
    ("factors", some (D.list (s.factors.map (Factor.toDict D)))),
    ("design", some s.design),
    ("rules", some (D.list (s.rules.map (RuleSpec.toDict D)))),
    ("metrics", some (D.list (s.metrics.map (MetricSpec.toDict D)))),
    ("stop", some (s.stop.toDict D)),
    ("adapt", some (s.adapt.toDict D)),
    ("git_sha", some s.gitSha),
    ("pricing_version", some s.pricingVersion),
    ("seed", some s.seed),
    ("artifact_kind", some (D.str s.artifactKind)),
    ("intent", some (D.str s.intent)),
    ("side_effects", some (s.sideEffects.toDict D)),
    ("repeatable", some (D.bool s.repeatable)),
    ("sandboxed", some (D.bool s.sandboxed)),
    ("status", some (D.str s.status)),
    ("supersedes", some (D.list (s.supersedes.map D.str))),
    ("superseded_by", some (D.ofOption s.supersededBy)),
    ("completed_at", some (D.ofOption s.completedAt)),
    ("last_run_at", some (D.ofOption s.lastRunAt)),
    ("results_pointer", some (D.ofOption s.resultsPointer)),
    ("comparison", s.comparison.map (ComparisonSpec.toDict D)),
    ("writeup", s.writeup.map (WriteupSpec.toDict D))]

def toDict (s : ExperimentSpec V) : Dict V := Document.present (s.entries D)

/-- A part that is only loaded where its value is true. -/
def optional {α : Type} (load : V → Except SpecError α) (value : V) :
    Except SpecError (Option α) :=
  if D.truthy value then do return some (← load value) else .ok none

def fromDict (document : V) : Except SpecError (ExperimentSpec V) := do
  let get ← D.fields document
  let need ← D.required "ExperimentSpec"
    ["name", "question", "version", "workflow", "factors", "design"] get
  -- the keys that are not known are sorted for the warning
  if !D.sortsOthers specKeys document then throw .ordering
  let found (key : String) : V := (get key).getD D.null
  return {
    name := need "name"
    question := need "question"
    version := need "version"
    workflow := ← Workflow.fromDict D (need "workflow")
    factors := ← (← D.iterate (need "factors")).mapM (Factor.fromDict D)
    design := need "design"
    rules := ← (← D.listUnder get "rules").mapM (RuleSpec.fromDict D)
    metrics := ← (← D.listUnder get "metrics").mapM (MetricSpec.fromDict D)
    comparison := ← optional D (ComparisonSpec.fromDict D) (found "comparison")
    writeup := ← optional D (WriteupSpec.fromDict D) (found "writeup")
    stop := ← StopSpec.fromDict D (D.orElse ((get "stop").getD (D.dict [])) (D.dict []))
    adapt := ← AdaptSpec.fromDict D (D.orElse ((get "adapt").getD (D.dict [])) (D.dict []))
    gitSha := (get "git_sha").getD (D.str "")
    pricingVersion := (get "pricing_version").getD (D.str "")
    seed := found "seed"
    artifactKind := D.text (D.orElse (found "artifact_kind") (D.str "experiment"))
    intent := D.text (D.orElse (found "intent") (D.str "measure"))
    sideEffects := ← SideEffects.fromDict D (found "side_effects")
    repeatable := D.truthy ((get "repeatable").getD (D.bool true))
    sandboxed := D.truthy ((get "sandboxed").getD (D.bool false))
    status := D.text (D.orElse (found "status") (D.str ""))
    supersedes := ← D.asNameList (found "supersedes")
    supersededBy := D.asOptionalStr (found "superseded_by")
    completedAt := D.asOptionalStr (found "completed_at")
    lastRunAt := D.asOptionalStr (found "last_run_at")
    resultsPointer := D.asOptionalStr (found "results_pointer") }

/-! ### Revisions -/

def revisionVolatileKeys : List String :=
  ["status", "supersedes", "superseded_by", "completed_at", "last_run_at", "results_pointer",
    "git_sha", "pricing_version", "generated_at"]

def canonicalSpecDefinition (s : ExperimentSpec V) : Dict V :=
  (s.toDict D).filter fun kv => kv.1 ∉ revisionVolatileKeys

/-- `compute_workflow_revision_id`, given `json.dumps` with its failures. -/
def workflowRevisionId (dumps : V → Except String String) (sha256 : String → String)
    (s : ExperimentSpec V) : Except String String := do
  return sha256 (← dumps (D.dict (s.canonicalSpecDefinition D)))

end ExperimentSpec

end AgenticDynamics.Experiment.Loaded
