import AgenticDynamics.Context.FactContracts

/-!
# The gate on rules

A rule may consume what the ledger has and what the measurement rules of its spec emit. The gate
looks at each requirement by itself, so measurement rules may rest on one another in a cycle.
-/

namespace AgenticDynamics.Experiment

open Python Derivations Context

/-! ### Rules -/

structure RuleSpec extends RuleLike where
  evidenceClass : String
  requires : List String := []
  produces : List String := []

def ledgerFields : List String :=
  ["job_id", "spec_id", "policy_arm", "policy_id", "budget", "due_at", "forecast_cost",
    "forecast_latency", "actual_cost", "deadline_slack", "status", "checkpoints", "model",
    "condition", "policy", "seed", "strength", "story", "tier", "attempt_id", "attempt_number",
    "parent_attempt_id", "retry_reason", "escalation_from", "escalation_to",
    "provider_model_version", "queued_at", "leased_at", "started_at", "first_token_at",
    "ended_at", "queue_wait_ms", "service_time_ms", "cache_hit", "tool_calls", "completed",
    "first_pass", "accepted", "evaluator_independent", "tokens_in", "tokens_out",
    "tokens_reasoning", "tokens_answer", "tokens_explanation", "cost_inference",
    "cost_orchestration", "cost_source", "estimation_method", "reported_cost_usd",
    "settled_cost_usd", "settlement_status", "value", "rework_cost", "reuse_value", "confidence",
    "perturbation_strength", "test_executed_success"]

/-- `PLANES`, sorted. -/
def planes : List String := ["control", "measurement"]

/-- `EVIDENCE_CLASSES`, sorted. -/
def evidenceClasses : List String := ["[C]", "[H]", "[M]", "[P]", "[X]"]

/-- The registries of the gate on fact contracts. -/
structure FactRegistries where
  predicates : Dict PredicateLike
  reducers : Dict ReducerLike
  contracts : Dict ContractSpec := []

section Gate

variable (host : Host)

/-- What the first loop of `validate_rules` finds, given the names that were seen. -/
def declarationErrors : List String → List RuleSpec → List String
  | _, []              => []
  | seen, rule :: rest =>
    (if rule.name ∈ seen then ["duplicate rule name " ++ host.quote rule.name] else []) ++
    (if rule.plane ∉ planes then
      ["rule \"" ++ rule.name ++ "\": plane " ++ host.quote rule.plane ++ " is not one of " ++
        quoteAll host planes]
    else []) ++
    (if rule.evidenceClass ∉ evidenceClasses then
      ["rule \"" ++ rule.name ++ "\": evidence_class " ++ host.quote rule.evidenceClass ++
        " is not one of " ++ quoteAll host evidenceClasses]
    else []) ++
    declarationErrors (rule.name :: seen) rest

def available (rules : List RuleSpec) : List String :=
  ledgerFields ++ (rules.filter fun rule => rule.plane = "measurement").flatMap RuleSpec.produces

/-- `validate_rules`; without registries the gate on fact contracts is left out. -/
def validateRules (rules : List RuleSpec) (facts : Option FactRegistries) : List String :=
  declarationErrors host [] rules ++
  (rules.flatMap fun rule => rule.requires.flatMap fun req =>
    if req ∉ available rules then
      ["rule \"" ++ rule.name ++ "\" requires " ++ host.quote req ++
        " — not produced by the ledger or any measurement rule in this spec. Instrument it first."]
    else []) ++
  facts.elim [] fun registries =>
    validateFactContracts host registries.predicates registries.reducers
      (rules.map RuleSpec.toRuleLike) registries.contracts

end Gate

/-! ### What rests on what -/

section Satisfied

variable (rules : List RuleSpec)

/-- A measurement rule emits the information from what it requires. -/
def Measures (required : List String) (info : String) : Prop :=
  ∃ rule ∈ rules, rule.plane = "measurement" ∧ info ∈ rule.produces ∧ rule.requires = required

/-- A measurement rule emits what another rule requires and the ledger does not have. -/
def RestsOn (rule other : Fin rules.length) : Prop :=
  (rules.get other).plane = "measurement" ∧
    ∃ info ∈ (rules.get rule).requires, info ∉ ledgerFields ∧ info ∈ (rules.get other).produces

instance (rule other : Fin rules.length) : Decidable (RestsOn rules rule other) :=
  inferInstanceAs (Decidable (_ ∧ ∃ info ∈ _, _))

/-- The information is in the ledger, or a measurement rule emits it whose own requirements are
satisfied the same way. -/
def Satisfied (info : String) : Prop := Derivable (· ∈ ledgerFields) (Measures rules) info

end Satisfied

section Sound

variable {host : Host} {rules : List RuleSpec} {facts : Option FactRegistries}

lemma available_of_validateRules (h : validateRules host rules facts = []) {rule : RuleSpec}
    (hrule : rule ∈ rules) {info : String} (hinfo : info ∈ rule.requires) :
    info ∈ available rules := by
  simp only [validateRules, List.append_eq_nil_iff, List.flatMap_eq_nil_iff] at h
  have hchecked := h.1.2 rule hrule info hinfo
  by_contra hnot
  rw [if_pos hnot] at hchecked
  cases hchecked

lemma mem_available {info : String} : info ∈ available rules ↔
    info ∈ ledgerFields ∨ ∃ rule ∈ rules, rule.plane = "measurement" ∧ info ∈ rule.produces := by
  simp only [available, List.mem_append, List.mem_flatMap, List.mem_filter, decide_eq_true_eq,
    and_assoc]

lemma satisfied_of_wellFounded (h : validateRules host rules facts = [])
    (hwf : WellFounded fun other rule => RestsOn rules rule other) (i : Fin rules.length) :
    ∀ info ∈ (rules.get i).requires, Satisfied rules info := by
  induction i using hwf.induction with
  | _ i ih =>
    intro info hinfo
    rcases mem_available.mp (available_of_validateRules h (rules.get_mem i) hinfo) with
      hledger | ⟨rule, hrule, hplane, hproduces⟩
    · exact .evidence hledger
    · by_cases hledger : info ∈ ledgerFields
      · exact .evidence hledger
      · obtain ⟨j, rfl⟩ := List.get_of_mem hrule
        refine .step ⟨rules.get j, hrule, hplane, hproduces, rfl⟩ ?_
        exact ih j ⟨hplane, info, hinfo, hledger, hproduces⟩

/-- In a spec without errors what the rules require supports itself, and it is satisfied where no
rule rests on itself. -/
theorem validated_requirements_supported (h : validateRules host rules facts = []) :
    Supported (· ∈ ledgerFields) (Measures rules)
        (fun info => ∃ rule ∈ rules, info ∈ rule.requires) ∧
      ((∀ i, ¬ Relation.TransGen (RestsOn rules) i i) →
        ∀ rule ∈ rules, ∀ info ∈ rule.requires, Satisfied rules info) := by
  constructor
  · rintro info ⟨rule, hrule, hinfo⟩
    rcases mem_available.mp (available_of_validateRules h hrule hinfo) with
      hledger | ⟨source, hsource, hplane, hproduces⟩
    · exact .inl hledger
    · exact .inr ⟨source.requires, ⟨source, hsource, hplane, hproduces, rfl⟩,
        fun b hb => ⟨source, hsource, hb⟩⟩
  · intro hacyclic rule hrule info hinfo
    obtain ⟨i, rfl⟩ := List.get_of_mem hrule
    have hwf : WellFounded fun other rule => RestsOn rules rule other := by
      refine wellFounded_of_acyclic fun i hcycle => hacyclic i ?_
      exact Relation.transGen_swap.mp hcycle
    exact satisfied_of_wellFounded h hwf i info hinfo

/-! ### Two specs -/

/-- A score that is measured from tokens, and a control rule that consumes it. -/
def instrumented : List RuleSpec :=
  [{ name := "score", plane := "measurement", evidenceClass := "[C]", requires := ["tokens_out"],
     produces := ["score"] },
    { name := "route", plane := "control", evidenceClass := "[H]", requires := ["score"] }]

/-- A score that is measured from itself, and a control rule that consumes it. -/
def selfMeasured : List RuleSpec :=
  [{ name := "score", plane := "measurement", evidenceClass := "[C]", requires := ["score"],
     produces := ["score"] },
    { name := "route", plane := "control", evidenceClass := "[H]", requires := ["score"] }]

theorem validated_requirements_supported_instrumented : Satisfied instrumented "score" := by
  have hrules : validateRules ladderHost instrumented none = [] := by decide
  have hroute : instrumented[1] ∈ instrumented := List.getElem_mem _
  refine (validated_requirements_supported hrules).2 (fun i hcycle => ?_) _ hroute _ (by decide)
  have hbefore : ∀ i j, RestsOn instrumented i j → j < i := by decide
  have hpath : ∀ j, Relation.TransGen (RestsOn instrumented) i j → j < i := by
    intro j hj
    induction hj with
    | single hrests => exact hbefore _ _ hrests
    | tail _ hrests ih => exact (hbefore _ _ hrests).trans ih
  exact lt_irrefl i (hpath i hcycle)

/-- The gate refuses nothing, and nothing measures the score. -/
theorem self_measured_passes : ∃ host : Host, validateRules host selfMeasured none = [] ∧
    (∃ rule ∈ selfMeasured, "score" ∈ rule.requires) ∧ ¬ Satisfied selfMeasured "score" := by
  refine ⟨ladderHost, by decide, by decide, fun hsatisfied => ?_⟩
  refine derivable_iff.mp hsatisfied (· = "score") ⟨?_, ?_⟩ rfl
  · rintro info rfl
    decide
  · rintro info required rfl ⟨rule, hrule, -, hproduces, rfl⟩
    simp only [selfMeasured, List.mem_cons, List.not_mem_nil, or_false] at hrule
    rcases hrule with rfl | rfl
    · exact ⟨"score", by simp, rfl⟩
    · cases hproduces

end Sound

end AgenticDynamics.Experiment
