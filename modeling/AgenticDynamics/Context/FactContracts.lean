import AgenticDynamics.Library.Derivations
import AgenticDynamics.Context.Requirements

/-!
# The gate on fact contracts

The gate refuses a rule whose facts could never be produced. It looks at the reducers that a
required predicate names and at what these consume, and no further.
-/

namespace AgenticDynamics.Context

open Python Derivations

/-! ### Registries -/

/-- What the gate reads of a predicate's declaration. -/
structure PredicateLike where
  valueType : String
  scopeType : String
  producedBy : List String
  volatile : Bool
  aggregatesFrom : String

/-- What the gate reads of a reducer's declaration, and what the reducer produces. -/
structure ReducerLike where
  consumes : List String
  produces : List String

structure RuleLike where
  name : String
  plane : String
  requiresFacts : List FactRequirement := []
  decisionType : String := ""

def relativeScopes : List String := ["self", "parent"]

/-! ### Refusals -/

section Gate

variable (host : Host) (predicates : Dict PredicateLike) (reducers : Dict ReducerLike)

/-- What `_validate_one_requirement` finds on the reduction ladder. -/
def ladderErrors (ruleName : String) (req : FactRequirement) (producedBy : List String) :
    List String :=
  producedBy.flatMap fun reducerVersion =>
    match Dict.get? reducerVersion reducers with
    | none         => []
    | some reducer => reducer.consumes.flatMap fun consumed =>
      match Dict.get? consumed predicates with
      | none              => []
      | some consumedSpec =>
        if consumedSpec.producedBy = [] then
          ["rule \"" ++ ruleName ++ "\" requires " ++ host.quote req.fact ++ " — its reducer " ++
            reducerVersion ++ " consumes " ++ host.quote consumed ++
            ", which no reducer produces. The ladder is incomplete. (R3)"]
        else []

def validateOneRequirement (ruleName : String) (req : FactRequirement) : List String :=
  let refuse (text : String) : String := "rule \"" ++ ruleName ++ "\"" ++ text
  match Dict.get? req.fact predicates with
  | none     =>
    [refuse (" requires fact " ++ host.quote req.fact ++ " — no such predicate is declared. " ++
      "Declare it with a producing reducer first. (R1)")]
  | some row =>
    (if row.producedBy = [] then
      [refuse (" requires " ++ host.quote req.fact ++ " — declared but produced by no reducer. " ++
        "Instrument it first. (R2)")]
    else []) ++
    ladderErrors host predicates reducers ruleName req row.producedBy ++
    (if req.scope ∉ relativeScopes ∧ req.scope ≠ row.scopeType ∧ row.aggregatesFrom = "" then
      [refuse (" requires " ++ host.quote req.fact ++ " at scope " ++ host.quote req.scope ++
        " from a " ++ host.quote row.scopeType ++ "-scoped fact — no aggregation reducer exists. " ++
        "Declare one or raise the requirement's scope. (R4)")]
    else []) ++
    (if req.minAuthority = "ADVISORY" then
      [refuse (" requires " ++ host.quote req.fact ++ " at min_authority ADVISORY — a control " ++
        "rule may never consume an advisory value. (R5)")]
    else []) ++
    (if row.volatile ∧ req.maxAgeSeconds.isNone then
      [refuse (" requires volatile fact " ++ host.quote req.fact ++ " with no max_age_seconds " ++
        "— a control rule may not consume a volatile fact with unbounded age. (R6)")]
    else []) ++
    (if req.onMissing ∉ onMissingValues then
      [refuse (": on_missing " ++ host.quote req.onMissing ++ " is not one of " ++
        quoteAll host onMissingValues ++ " (R7)")]
    else []) ++
    (if req.onConflict ∉ onConflictValues then
      [refuse (": on_conflict " ++ host.quote req.onConflict ++ " is not one of " ++
        quoteAll host onConflictValues ++ " (R7)")]
    else []) ++
    match req.valueType with
    | none           => []
    | some valueType =>
      if valueType ≠ row.valueType then
        [refuse (" requires " ++ host.quote req.fact ++ " as " ++ host.quote valueType ++
          "; the registry declares " ++ host.quote row.valueType ++ ". (R8)")]
      else []

/-- The refusal of an invariant that is no constraint. -/
def invariantErrors (contract : ContractSpec) : List String :=
  contract.invariants.flatMap fun inv =>
    if inv.onMissing ≠ "halt" ∧ inv.onMissing ≠ "escalate" then
      ["contract " ++ host.quote contract.decisionType ++ "/" ++ contract.contractVersion ++
        " invariant " ++ host.quote inv.fact ++ ": on_missing " ++ host.quote inv.onMissing ++
        " is not one of ('halt', 'escalate') — an invariant that classifies is not a " ++
        "constraint. (R11)"]
    else []

/-- The refusals that come from the contract a rule is bound to. -/
def bindingErrors (contracts : Dict ContractSpec) (rule : RuleLike) : List String :=
  if rule.plane = "control" ∧ rule.decisionType ≠ "" then
    match Dict.get? rule.decisionType contracts with
    | none          =>
      ["rule \"" ++ rule.name ++ "\": decision_type " ++ host.quote rule.decisionType ++
        " has no contract in experiments/contexts/ (R9)"]
    | some contract => rule.requiresFacts.flatMap fun req =>
      if req.fact ∈ contract.excludes then
        ["rule \"" ++ rule.name ++ "\" requires " ++ host.quote req.fact ++ "; contract " ++
          host.quote contract.decisionType ++ "/" ++ contract.contractVersion ++
          " excludes it. (R10)"]
      else []
  else []

def validateFactContracts (rules : List RuleLike) (contracts : Dict ContractSpec) : List String :=
  (contracts.flatMap fun entry => invariantErrors host entry.2) ++
  rules.flatMap fun rule =>
    bindingErrors host contracts rule ++
    rule.requiresFacts.flatMap fun req =>
      validateOneRequirement host predicates reducers rule.name req

end Gate

/-! ### What can be produced -/

section Producible

variable (predicates : Dict PredicateLike) (reducers : Dict ReducerLike)

/-- A name that is no predicate is a source of evidence. -/
def Evidence (name : String) : Prop := Dict.get? name predicates = none

/-- A registered reducer produces the predicate, which names it, from what it consumes. -/
def Reduces (consumed : List String) (fact : String) : Prop :=
  ∃ row, Dict.get? fact predicates = some row ∧ ∃ version ∈ row.producedBy,
    ∃ reducer, Dict.get? version reducers = some reducer ∧ fact ∈ reducer.produces ∧
      reducer.consumes = consumed

/-- A declared predicate that a well-founded chain of registered reducers derives from evidence. -/
def Producible (fact : String) : Prop :=
  ¬ Evidence predicates fact ∧ Derivable (Evidence predicates) (Reduces predicates reducers) fact

/-- A predicate that a rule requires, or the contract of some decision. -/
def Required (rules : List RuleLike) (contracts : Dict ContractSpec) (fact : String) : Prop :=
  (∃ rule ∈ rules, ∃ req ∈ rule.requiresFacts, req.fact = fact) ∨
    ∃ entry ∈ contracts, ∃ req ∈ entry.2.invariants ++ entry.2.requiresFacts, req.fact = fact

end Producible

/-! ### What the gate checks -/

section Checked

variable {host : Host} {predicates : Dict PredicateLike} {reducers : Dict ReducerLike}
  {rules : List RuleLike} {contracts : Dict ContractSpec}

lemma row_of_validateOneRequirement {ruleName : String} {req : FactRequirement}
    (h : validateOneRequirement host predicates reducers ruleName req = []) :
    ∃ row, Dict.get? req.fact predicates = some row ∧ row.producedBy ≠ [] ∧
      ∀ version ∈ row.producedBy, ∀ reducer, Dict.get? version reducers = some reducer →
        ∀ consumed ∈ reducer.consumes, ∀ spec, Dict.get? consumed predicates = some spec →
          spec.producedBy ≠ [] := by
  rw [validateOneRequirement] at h
  cases hrow : Dict.get? req.fact predicates with
  | none => simp [hrow] at h
  | some row =>
    simp only [hrow, List.append_eq_nil_iff] at h
    obtain ⟨⟨⟨⟨⟨⟨⟨hproduced, hladder⟩, -⟩, -⟩, -⟩, -⟩, -⟩, -⟩ := h
    refine ⟨row, rfl, fun hnone => by simp [hnone] at hproduced, ?_⟩
    intro version hversion reducer hreducer consumed hconsumed spec hspec hnone
    rw [ladderErrors, List.flatMap_eq_nil_iff] at hladder
    have hversions := hladder version hversion
    simp only [hreducer, List.flatMap_eq_nil_iff] at hversions
    have hconsumes := hversions consumed hconsumed
    simp [hspec, hnone] at hconsumes

lemma declared_of_validate (h : validateFactContracts host predicates reducers rules contracts = [])
    {rule : RuleLike} (hrule : rule ∈ rules) {req : FactRequirement}
    (hreq : req ∈ rule.requiresFacts) : ¬ Evidence predicates req.fact := by
  simp only [validateFactContracts, List.append_eq_nil_iff, List.flatMap_eq_nil_iff] at h
  obtain ⟨row, hrow, -⟩ := row_of_validateOneRequirement ((h.2 rule hrule).2 req hreq)
  simp [Evidence, hrow]

/-- Where nothing is refused, every required predicate can be produced exactly when each is declared
and lies in no set of predicates that no registered reducer leads out of. -/
theorem gate_proves_producibility_iff :
    (validateFactContracts host predicates reducers rules contracts = [] →
        ∀ fact, Required rules contracts fact → Producible predicates reducers fact) ↔
      (validateFactContracts host predicates reducers rules contracts = [] →
        (∀ entry ∈ contracts, ∀ req ∈ entry.2.invariants ++ entry.2.requiresFacts,
          ¬ Evidence predicates req.fact) ∧
        ∀ T, Trap (Evidence predicates) (Reduces predicates reducers) T →
          ∀ fact, Required rules contracts fact → ¬ T fact) := by
  refine forall_congr' fun hgate => ?_
  constructor
  · intro h
    constructor
    · intro entry hentry req hreq
      exact (h req.fact (.inr ⟨entry, hentry, req, hreq, rfl⟩)).1
    · intro T htrap fact hfact
      exact derivable_iff.mp (h fact hfact).2 T htrap
  · rintro ⟨hdeclared, htraps⟩ fact hfact
    refine ⟨?_, derivable_iff.mpr fun T htrap => htraps T htrap fact hfact⟩
    rcases hfact with ⟨rule, hrule, req, hreq, rfl⟩ | ⟨entry, hentry, req, hreq, rfl⟩
    · exact declared_of_validate hgate hrule hreq
    · exact hdeclared entry hentry req hreq

/-! ### Two predicates that are reduced from one another -/

def circularPredicates : Dict PredicateLike :=
  [("health", ⟨"float", "job", ["health/v1"], false, ""⟩),
    ("trend", ⟨"float", "job", ["trend/v1"], false, ""⟩)]

def circularReducers : Dict ReducerLike :=
  [("health/v1", ⟨["trend"], ["health"]⟩), ("trend/v1", ⟨["health"], ["trend"]⟩)]

def circularRule : RuleLike where
  name := "route"
  plane := "control"
  requiresFacts := [{ fact := "health" }]

def ladderHost : Host where
  loads _ := .ok .null
  repr _ := ""
  upper := String.toUpper
  lower := String.toLower
  sha256 := id
  dumps _ := ""
  fromisoformat _ := none

/-- The gate refuses nothing, and there is no evidence to start from. -/
theorem circular_ladder_passes : ∃ host : Host,
    validateFactContracts host circularPredicates circularReducers [circularRule] [] = [] ∧
      Required [circularRule] [] "health" ∧
      ¬ Producible circularPredicates circularReducers "health" := by
  refine ⟨ladderHost, rfl, .inl ⟨circularRule, by simp, { fact := "health" }, by simp [circularRule], rfl⟩, ?_⟩
  rintro ⟨-, hderivable⟩
  refine derivable_iff.mp hderivable (fun name => name = "health" ∨ name = "trend") ?_ (.inl rfl)
  constructor
  · rintro name (rfl | rfl) hevidence
    · cases hevidence
    · cases hevidence
  · rintro name consumed (rfl | rfl) ⟨row, hrow, version, hversion, reducer, hreducer, -, rfl⟩
    · cases hrow
      obtain rfl : version = "health/v1" := by simpa using hversion
      cases hreducer
      exact ⟨"trend", by simp, .inr rfl⟩
    · cases hrow
      obtain rfl : version = "trend/v1" := by simpa using hversion
      cases hreducer
      exact ⟨"health", by simp, .inl rfl⟩

end Checked

end AgenticDynamics.Context
