import Mathlib.Data.String.Basic
import AgenticDynamics.Library.Python

/-!
# Canonical facts

A fact is a typed statement about a subject in a scope, with the chain it was derived by. This
module has the declared predicates and reducers, the validation of a chain and the state of a fact
as of a reading of the store.
-/

namespace AgenticDynamics.Context

open Python

/-! ### Epistemics -/

/-- `Authority`, lowest first. -/
inductive Authority
  | advisory
  | derived
  | measured
  | source
  | policy
  deriving DecidableEq

namespace Authority

def rank : Authority → ℕ
  | advisory => 1
  | derived  => 2
  | measured => 3
  | source   => 4
  | policy   => 5

def name : Authority → String
  | advisory => "ADVISORY"
  | derived  => "DERIVED"
  | measured => "MEASURED"
  | source   => "SOURCE"
  | policy   => "POLICY"

/-- `Authority[name]`; none stands for the `KeyError`. -/
def ofName? (name : String) : Option Authority :=
  [advisory, derived, measured, source, policy].find? fun a => a.name = name

lemma rank_injective : Function.Injective rank := by
  intro a b h
  cases a <;> cases b <;> simp_all [rank]

lemma name_injective : Function.Injective name := by
  intro a b h
  cases a <;> cases b <;> simp_all [name]

instance : LinearOrder Authority := LinearOrder.lift' rank rank_injective

end Authority

/-- `EPISTEMIC_MAP`: the authority and the evidence class of a status. -/
def epistemicMap : List (String × Authority × String) :=
  [("observed", .measured, "[M]"), ("verified", .measured, "[M]"), ("derived", .derived, "[C]"),
    ("declared", .policy, "[P]"), ("advisory", .advisory, "[H]")]

/-! ### Facts -/

structure CanonicalFact where
  factEntityId : String
  factId : String
  subjectId : String
  predicate : String
  value : String
  valueType : String
  scopePath : String
  abstractionLevel : String
  epistemicStatus : String
  authority : Authority
  evidenceClass : String
  observedAt : String
  expiresAt : Option String := none
  reducerVersion : String
  evidenceIds : List String
  inputsDigest : String
  lifecycleState : String := "current"
  deriving DecidableEq

structure PredicateSpec where
  name : String
  scopeType : String
  abstractionLevel : String
  producedBy : List String
  inheritable : Bool

/-- Declarations that differ in their names. -/
def family (scopeType abstractionLevel : String) (producedBy : List String)
    (inheritable : Bool) (names : List String) : List PredicateSpec :=
  names.map fun name => { name, scopeType, abstractionLevel, producedBy, inheritable }

def factPredicates : List PredicateSpec :=
  family "workload" "fact" ["spec_status/v1"] true
    ["spec_status", "spec_superseded_by", "spec_supersedes", "spec_last_run_at", "spec_latest_ok",
      "spec_latest_model", "spec_latest_cost_usd", "spec_n_runs"] ++
  family "job" "job" ["job_facts/v1"] false ["current_commit"] ++
  family "attempt" "fact" ["attempt_facts/v1", "story_facts/v1"] false
    ["phase_status", "phase_test_verified", "attempt_cost_usd", "attempt_tokens_out",
      "attempt_tokens_in", "attempt_model", "phase_commit"] ++
  family "attempt" "fact" ["attempt_facts/v1"] false ["attempt_cache_hit_rate"] ++
  family "attempt" "fact" ["attempt_facts/v1", "story_facts/v1"] false ["attempt_confidence"] ++
  family "job" "job" ["job_facts/v1"] false
    ["job_accumulated_cost_usd", "job_status", "job_n_phases"] ++
  family "workflow" "workflow" ["workflow_facts/v1"] false
    ["workflow_phases_completed", "workflow_phases_remaining", "workflow_status",
      "workflow_health", "projected_budget_overrun"] ++
  family "workload" "policy" ["policy_facts/v1"] true
    ["allowed_models", "max_spend_usd", "max_attempts"] ++
  family "workload" "policy" ["profiles/v1"] true
    ["domain_profile_version", "challenge_profile_version"] ++
  family "workload" "workload" ["pattern/v1"] true ["pattern"] ++
  family "job" "job" ["checkpoint/v1"] false
    ["session_checkpoint", "checkpoint_present", "checkpoint_goal_unchanged",
      "checkpoint_phase_unchanged", "checkpoint_model_unchanged", "model_change_required",
      "checkpoint_snapshot_identity"] ++
  family "job" "fact" ["code_change_facts/v2"] false
    ["analysis_revision_matches", "ast_parse_coverage", "lsp_analysis_status",
      "sonar_analysis_status", "changed_symbol_count", "impacted_symbol_count",
      "new_lsp_error_count", "new_sonar_critical_count", "changed_symbols_with_tests_ratio",
      "code_change_risk"]

/-- `FACT_PREDICATES.get(name)`. -/
def predicateSpec? (name : String) : Option PredicateSpec :=
  factPredicates.find? fun spec => spec.name = name

structure ReducerSpec where
  version : String
  level : String
  produces : List String

def reducers : List ReducerSpec :=
  [⟨"spec_status/v1", "fact", ["spec_status", "spec_superseded_by", "spec_supersedes",
      "spec_last_run_at", "spec_latest_ok", "spec_latest_model", "spec_latest_cost_usd",
      "spec_n_runs"]⟩,
    ⟨"attempt_facts/v1", "fact", ["phase_status", "attempt_model", "attempt_tokens_in",
      "attempt_tokens_out", "attempt_cost_usd", "attempt_cache_hit_rate", "phase_test_verified",
      "attempt_confidence", "phase_commit"]⟩,
    ⟨"job_facts/v1", "job", ["current_commit", "job_accumulated_cost_usd", "job_status",
      "job_n_phases"]⟩,
    ⟨"workflow_facts/v1", "workflow", ["workflow_phases_completed", "workflow_phases_remaining",
      "workflow_status", "workflow_health", "projected_budget_overrun"]⟩,
    ⟨"policy_facts/v1", "policy", ["allowed_models", "max_spend_usd", "max_attempts"]⟩,
    ⟨"story_facts/v1", "fact", ["phase_status", "phase_commit", "attempt_model",
      "attempt_tokens_in", "attempt_tokens_out", "attempt_cost_usd", "attempt_confidence",
      "phase_test_verified"]⟩,
    ⟨"profiles/v1", "policy", ["domain_profile_version", "challenge_profile_version"]⟩,
    ⟨"pattern/v1", "workload", ["pattern"]⟩,
    ⟨"checkpoint/v1", "job", ["session_checkpoint", "checkpoint_present",
      "checkpoint_goal_unchanged", "checkpoint_phase_unchanged", "checkpoint_model_unchanged",
      "model_change_required", "checkpoint_snapshot_identity"]⟩,
    ⟨"code_change_facts/v2", "fact", ["analysis_revision_matches", "ast_parse_coverage",
      "lsp_analysis_status", "sonar_analysis_status", "changed_symbol_count",
      "impacted_symbol_count", "new_lsp_error_count", "new_sonar_critical_count",
      "changed_symbols_with_tests_ratio", "code_change_risk"]⟩]

/-- Every predicate names reducers that are declared to produce it, at its level. -/
example : ∀ spec ∈ factPredicates, spec.producedBy ≠ [] ∧ ∀ version ∈ spec.producedBy,
    ∃ reducer ∈ reducers, reducer.version = version ∧ spec.name ∈ reducer.produces ∧
      reducer.level = spec.abstractionLevel := by
  decide +kernel

/-! ### The store -/

/-- A registry row; a key it lacks is none. -/
structure Row where
  knowledgeId : Option String := none
  factId : Option String := none
  lifecycleState : Option String := none
  deriving DecidableEq

/-- `row.get("knowledge_id") or row.get("fact_id")`. -/
def Row.id (row : Row) : Option String :=
  match row.knowledgeId with
  | some id => if id = "" then row.factId else some id
  | none    => row.factId

/-- `FactStore`: what the compiler reads, all of it at one moment. -/
structure FactStore where
  currentFacts : String → List CanonicalFact
  resolve : String → Option Row
  currentVersions : String → Option (List Row)

/-- The row of a fact of `InMemoryFactStore`. -/
def CanonicalFact.row (fact : CanonicalFact) : Row where
  knowledgeId := some fact.factId
  lifecycleState := some fact.lifecycleState

def inMemoryFactStore (facts : List CanonicalFact) : FactStore where
  currentFacts predicate :=
    facts.filter fun f => f.predicate = predicate ∧ f.lifecycleState = "current"
  resolve factId := (facts.find? fun f => f.factId = factId).map CanonicalFact.row
  currentVersions factEntityId :=
    let rows := (facts.filter fun f => f.factEntityId = factEntityId).map CanonicalFact.row
    if rows.isEmpty then none else some rows

/-! ### Chains -/

section Chains

variable (host : Host) (fact : CanonicalFact) (resolve : String → Option Row)

def recomputeInputsDigest : String :=
  host.sha256 ("|".intercalate (fact.evidenceIds.insertionSort (· ≤ ·) ++ [fact.reducerVersion]))

/-- `verify_chain` against `REDUCERS`: every reason to refuse the fact. -/
def verifyChain : List String :=
  let refusal (text : String) : String := "fact " ++ fact.factId ++ ": " ++ text
  let spec := reducers.find? fun spec => spec.version = fact.reducerVersion
  let unregistered := if spec.isNone then
    [refusal ("reducer " ++ host.quote fact.reducerVersion ++ " is not registered")] else []
  let dangling := (fact.evidenceIds.filter fun eid => (resolve eid).isNone).map fun eid =>
    refusal ("evidence " ++ eid ++ " does not resolve in the registry")
  let altered := if recomputeInputsDigest host fact ≠ fact.inputsDigest then
    [refusal "inputs_digest mismatch (artifact altered?)"] else []
  let undeclared := match spec with
    | none      => []
    | some spec =>
      (if fact.predicate ∉ spec.produces then
        [refusal (fact.reducerVersion ++ " does not declare " ++ host.quote fact.predicate)]
        else []) ++
      (if fact.abstractionLevel ≠ spec.level then
        [refusal ("level " ++ host.quote fact.abstractionLevel ++ " != reducer level " ++
          host.quote spec.level)] else [])
  let contradictory :=
    if (epistemicMap.lookup fact.epistemicStatus) ≠ some (fact.authority, fact.evidenceClass) then
      [refusal ("authority/evidence_class contradict epistemic_status " ++
        host.quote fact.epistemicStatus)] else []
  unregistered ++ dangling ++ altered ++ undeclared ++ contradictory

lemma verifyChain_congr {resolve' : String → Option Row}
    (h : ∀ eid ∈ fact.evidenceIds, (resolve' eid).isNone = (resolve eid).isNone) :
    verifyChain host fact resolve' = verifyChain host fact resolve := by
  have hdangling : (fact.evidenceIds.filter fun eid => (resolve' eid).isNone) =
      fact.evidenceIds.filter fun eid => (resolve eid).isNone :=
    List.filter_congr h
  simp only [verifyChain, hdangling]

end Chains

/-! ### The state of a fact -/

/-- The answers of `fact_state`. -/
inductive FactState
  | current
  | stale
  | superseded
  | tombstoned
  | conflicted
  deriving DecidableEq

section State

variable (now : String) (store : FactStore) (fact : CanonicalFact)

/-- The row of the fact itself is in a state. -/
def ownRow (state : String) : Bool :=
  (if fact.factId = "" then none else store.resolve fact.factId).any fun row =>
    row.lifecycleState = some state

/-- The slot of the fact has more than one current version. -/
def rivalled : Bool :=
  let current := ((store.currentVersions fact.factEntityId).getD []).filter fun row =>
    row.lifecycleState = none ∨ row.lifecycleState = some "current"
  1 < (current.map Row.id).dedup.length

/-- `expires_at and expires_at < now`. -/
def expired : Bool :=
  match fact.expiresAt with
  | none    => false
  | some at' => at' ≠ "" ∧ at' < now

/-- Some evidence has been superseded or retracted. -/
def cascades : Bool :=
  fact.evidenceIds.any fun eid => (store.resolve eid).any fun row =>
    row.lifecycleState = some "superseded" ∨ row.lifecycleState = some "tombstoned"

/-- `fact_state`: the first that applies. -/
def factState : FactState :=
  if ownRow store fact "tombstoned" then .tombstoned
  else if fact.lifecycleState = "tombstoned" then .tombstoned
  else if ownRow store fact "superseded" then .superseded
  else if fact.lifecycleState = "superseded" then .superseded
  else if rivalled store fact then .conflicted
  else if expired now fact then .stale
  else if cascades store fact then .stale
  else .current

lemma factState_eq_current : factState now store fact = .current ↔
    ¬ ownRow store fact "tombstoned" ∧ fact.lifecycleState ≠ "tombstoned" ∧
    ¬ ownRow store fact "superseded" ∧ fact.lifecycleState ≠ "superseded" ∧
    ¬ rivalled store fact ∧ ¬ expired now fact ∧ ¬ cascades store fact := by
  unfold factState
  split_ifs <;> simp_all

end State

end AgenticDynamics.Context
