import AgenticDynamics.Context.Compiled

/-!
# Decisions and their validation

A control rule proposes a decision from a compiled context, and `validate_decision` admits or
refuses it: ten checks in a fixed order, the first refusal of which is the answer.
-/

namespace AgenticDynamics.Context

open Python

/-! ### Decisions -/

/-- `AUTOMATABLE_ACTIONS`, sorted. -/
def automatableActions : List String := ["continue", "route"]

structure Precondition where
  fact : String
  scope : String
  op : String
  value : Json
  maxAgeSeconds : ℤ

structure ExpectedEffect where
  predicate : String
  direction : String
  magnitude : Option PyFloat
  horizon : String

/-- `ControlDecision`; its parameters are texts until it is recorded. -/
structure ControlDecision where
  decisionId : String
  snapshotId : String
  decisionType : String
  contractVersion : String
  action : String
  targetType : String
  targetId : String
  parameters : Dict String := []
  factsUsed : List String := []
  expectedEffect : List ExpectedEffect := []
  preconditions : List Precondition := []
  proposedBy : String := ""
  proposedAt : String := ""
  rationale : String := ""

/-! ### The rule -/

def find (refs : List FactRef) (predicate : String) : Option FactRef :=
  refs.find? fun r => r.predicate = predicate

/-- `{f.predicate: f for f in refs}.get(predicate)`: the last one. -/
def findLast (refs : List FactRef) (predicate : String) : Option FactRef :=
  (refs.filter fun r => r.predicate = predicate).getLast?

/-- `[m for m in value.split(",") if m]`. -/
def listedModels (value : String) : List String := (split ',' value).filter fun m => m ≠ ""

/-- `_decision_id`. -/
def decisionIdOf (host : Host) (snapshotId action targetId proposedAt : String) : String :=
  String.ofList ((host.sha256
    ("|".intercalate [snapshotId, action, targetId, proposedAt])).toList.take 16)

/-- What is to be true of the phases that remain, when a route is applied. -/
def phasesRemain : Precondition where
  fact := "workflow_phases_remaining"
  scope := "parent"
  op := "gt"
  value := .int 0
  maxAgeSeconds := 600

def routeNextJobV1 (host : Host) (ctx : ControlContext) (targetId proposedAt : String)
    (targetType : String := "job") (proposedBy : String := "policy_rule:route_next_job") :
    ControlDecision :=
  let stay (factsUsed : List String) (rationale : String) : ControlDecision :=
    { decisionId := decisionIdOf host ctx.snapshotId "continue" targetId proposedAt
      snapshotId := ctx.snapshotId
      decisionType := ctx.decisionType
      contractVersion := ctx.contractVersion
      action := "continue"
      targetType, targetId, factsUsed, proposedBy, proposedAt, rationale }
  if ¬ ctx.admissible then stay [] ("snapshot inadmissible: " ++ ctx.refusal)
  else match find ctx.workflow "workflow_phases_remaining", find ctx.invariants "allowed_models" with
    | some remaining, some allowed =>
      if remaining.value = "0" then
        stay [remaining.factId, allowed.factId] "no phases remaining"
      else match (listedModels allowed.value).insertionSort (· ≤ ·) with
        | [] => stay [remaining.factId, allowed.factId] "allowed_models invariant is empty"
        | chosen :: others =>
          { decisionId := decisionIdOf host ctx.snapshotId "route" targetId proposedAt
            snapshotId := ctx.snapshotId
            decisionType := ctx.decisionType
            contractVersion := ctx.contractVersion
            action := "route"
            targetType, targetId
            parameters := [("model", chosen)]
            factsUsed := ([some remaining, some allowed,
              find ctx.job "job_accumulated_cost_usd"].filterMap id).map FactRef.factId
            expectedEffect :=
              [⟨"workflow_phases_remaining", "decrease", some (.finite 1), "next_phase"⟩,
                ⟨"job_accumulated_cost_usd", "increase", none, "next_phase"⟩]
            preconditions := [phasesRemain]
            proposedBy, proposedAt
            rationale := remaining.value ++ " phase(s) remaining; routed to " ++ chosen ++
              " (lexicographically first of " ++ quoteAll host (chosen :: others) ++ ")" }
    | remaining, allowed =>
      stay (([remaining, allowed].filterMap id).map FactRef.factId)
        (if remaining.any fun f => f.value = "0" then "no phases remaining"
          else "workflow_phases_remaining or allowed_models unresolved")

/-! ### The checks -/

structure ValidationResult where
  admitted : Bool
  check : String
  reason : String
  deriving DecidableEq

section Checks

variable (host : Host)

/-- `float(actual)` and `float(expected)`; none where the raw values are compared instead. -/
def opNumbers (actualRaw : String) (expected : Json) :
    Except String (Option (PyFloat × PyFloat)) :=
  match host.parseFloat actualRaw with
  | none        => .ok none
  | some actual =>
    match expected.toFloat host.toRuntime with
    | .ok target => .ok (some (actual, target))
    | .error e   => if e = "TypeError" ∨ e = "ValueError" then .ok none else .error e

/-- `_op_holds`; the error is the exception's class. -/
def opHolds (actualRaw op : String) (expected : Json) : Except String Bool :=
  if op = "is_true" then .ok (actualRaw = "true")
  else if op = "is_false" then .ok (actualRaw = "false")
  else if op = "in" then
    match expected with
    | .arr items  => .ok (items.any fun item => match item with
      | .str s => s = actualRaw
      | _      => false)
    | .obj fields => .ok (fields.any fun kv => kv.1 = actualRaw)
    | .str s      => .ok (actualRaw.toList <:+: s.toList)
    | _           => .error "TypeError"
  else do
    match ← opNumbers host actualRaw expected with
    | some (actual, target) =>
      let same : Bool := actual = target ∧ actual ≠ .nan
      return match op with
        | "eq"  => same
        | "ne"  => !same
        | "lt"  => actual.lt target
        | "lte" => actual.le target
        | "gt"  => target.lt actual
        | "gte" => target.le actual
        | _     => false
    | none =>
      match op, expected with
      | "eq", .str s  => return actualRaw = s
      | "eq", _       => return false
      | "ne", .str s  => return actualRaw ≠ s
      | "ne", _       => return true
      | "lt", .str s  => return actualRaw < s
      | "lte", .str s => return actualRaw ≤ s
      | "gt", .str s  => return s < actualRaw
      | "gte", .str s => return s ≤ actualRaw
      | _, .str _     => return false
      | _, _          =>
        if op ∈ ["lt", "lte", "gt", "gte"] then throw "TypeError" else return false

/-- `repr` of a tuple of strings. -/
def quoteTuple (names : List String) : String :=
  match names with
  | [name] => "(" ++ host.quote name ++ ",)"
  | names  => "(" ++ ", ".intercalate (names.map host.quote) ++ ")"

/-- `f"{seconds:.0f}"`. -/
def wholeSeconds (micros : ℤ) : String :=
  (if micros < 0 then "-" else "") ++ Nat.repr (roundHalfEven (|(micros : ℚ)| / 1000000)).natAbs

variable (decision : ControlDecision) (ctx : ControlContext)

def c1SnapshotBinding : Option String :=
  if decision.snapshotId ≠ ctx.snapshotId then
    some ("decision.snapshot_id " ++ host.quote decision.snapshotId ++
      " does not match the supplied snapshot " ++ host.quote ctx.snapshotId)
  else if decision.decisionType ≠ ctx.decisionType then
    some ("decision.decision_type " ++ host.quote decision.decisionType ++
      " does not match the snapshot's " ++ host.quote ctx.decisionType)
  else none

def c2SnapshotAdmissibility : Option String :=
  if ¬ ctx.admissible then some ("snapshot is not admissible: " ++ ctx.refusal) else none

def c3ActionVocabulary (contract : ContractSpec) : Option String :=
  if decision.action ∉ contract.allowedActions then
    some ("action " ++ host.quote decision.action ++
      " is not in the contract's allowed_actions " ++ quoteTuple host contract.allowedActions)
  else none

def c4TargetScope : Option String :=
  if decision.targetId ∉ (parseScopePath ctx.scopePath).map Prod.snd then
    some ("target " ++ host.quote decision.targetId ++
      " is not within the snapshot's scope_path " ++ host.quote ctx.scopePath)
  else none

/-- `_c5_facts_citation`: the first fact that may not be cited, or that none is. -/
def c5FactsCitation : Option String :=
  let refusal? (fid : String) : Option String :=
    if fid ∈ ctx.advisory.map FactRef.factId then
      some ("facts_used cites " ++ host.quote fid ++
        " — an ADVISORY fact, never citable (hard rule 3)")
    else if fid ∉ ctx.citable.map FactRef.factId then
      some ("facts_used cites " ++ host.quote fid ++ " — not a canonical fact in this snapshot")
    else none
  (decision.factsUsed.findSome? refusal?).or
    (if decision.action ≠ "continue" ∧ decision.factsUsed = [] then
      some ("action " ++ host.quote decision.action ++ " cites no facts — facts_used must be " ++
        "non-empty for any action other than continue (F2)")
    else none)

/-- `_c6_derivation_chains`: every cited fact is read again, where there is a store. -/
def c6DerivationChains (store : Option FactStore) : Option String :=
  store.bind fun store => decision.factsUsed.findSome? fun fid =>
    match (ctx.citable.filter fun f => f.factId = fid).getLast? with
    | none     => none
    | some ref =>
      match (store.currentFacts ref.predicate).find? fun f => f.factId = fid with
      | none      => some ("cited fact " ++ host.quote fid ++
        " could not be re-resolved from the store")
      | some fact =>
        match verifyChain host fact store.resolve with
        | []         => none
        | error :: _ => some ("cited fact " ++ host.quote fid ++ " failed verify_chain: " ++ error)

/-- The age limit of `_c7_freshness_and_preconditions`. -/
def c7Freshness (contract : ContractSpec) (now : String) : Except String (Option String) :=
  match host.fromisoformat ctx.compiledAt, host.fromisoformat now,
    contract.maxSnapshotAgeSeconds with
  | some compiled, some current, some limit =>
    match current.sub compiled with
    | none     => .error "TypeError"
    | some age => .ok (if limit * 1000000 < age then
        some ("snapshot age " ++ wholeSeconds age ++
          "s exceeds contract max_snapshot_age_seconds " ++ toString limit ++
          " — the TOCTOU guard")
      else none)
  | _, _, _ => .ok none

/-- One precondition of `_c7_freshness_and_preconditions`. -/
def c7Precondition (fresh : ControlContext) (pre : Precondition) :
    Except String (Option String) :=
  match findLast fresh.citable pre.fact with
  | none     => .ok (some ("precondition on " ++ host.quote pre.fact ++
      " has no fresh value to re-check"))
  | some ref => do
    if ← opHolds host ref.value pre.op pre.value then return none
    else return some ("precondition " ++ host.quote pre.fact ++ " " ++ pre.op ++ " " ++
      host.repr pre.value ++ " failed against fresh value " ++ host.quote ref.value)

/-- The first refusal of a list of checks. -/
def firstReason : List (Except String (Option String)) → Except String (Option String)
  | []            => .ok none
  | check :: rest => do
    match ← check with
    | some reason => return some reason
    | none        => firstReason rest

def c7FreshnessAndPreconditions (fresh : ControlContext) (contract : ContractSpec)
    (now : String) : Except String (Option String) :=
  firstReason (c7Freshness host ctx contract now ::
    decision.preconditions.map (c7Precondition host fresh))

def c8PolicyInvariants : Option String :=
  let models := (findLast ctx.invariants "allowed_models").map fun f => listedModels f.value
  let refused := if decision.action = "route" then
      match models, decision.parameters.get? "model" with
      | some models, some model =>
        if models ≠ [] ∧ model ∉ models then
          some ("proposed model " ++ host.quote model ++
            " is not in the allowed_models invariant " ++ quoteAll host models ++
            " — policy outranks the controller")
        else none
      | _, _ => none
    else none
  refused.or
    (match findLast ctx.invariants "max_spend_usd", find ctx.job "job_accumulated_cost_usd" with
    | some maxSpend, some cost =>
      match host.parseFloat cost.value, host.parseFloat maxSpend.value with
      | some spent, some limit =>
        if limit.lt spent then
          some ("accumulated cost " ++ cost.value ++ " already exceeds max_spend_usd invariant " ++
            maxSpend.value)
        else none
      | _, _ => none
    | _, _ => none)

def c9ActuationAuthorization : Option String :=
  if decision.action ∉ automatableActions ∧ ¬ startsWith decision.proposedBy "operator:" then
    some ("action " ++ host.quote decision.action ++ " is not in AUTOMATABLE_ACTIONS " ++
      quoteAll host automatableActions ++ " and was not proposed by a human operator " ++
      "(proposed_by=" ++ host.quote decision.proposedBy ++ ")")
  else none

def c10Recordability : Option String :=
  if decision.decisionId = "" then some "decision has no decision_id"
  else if decision.snapshotId = "" then
    some "decision has no snapshot_id — the actuation record's `causes` would be unresolvable"
  else if decision.targetType = "" ∨ decision.targetId = "" then
    some "decision has no target — cannot be recorded"
  else none

/-- `_CHECKS`, in their order. -/
def checks (fresh : ControlContext) (contract : ContractSpec) (now : String)
    (store : Option FactStore) : List (String × Except String (Option String)) :=
  [("C1", .ok (c1SnapshotBinding host decision ctx)),
    ("C2", .ok (c2SnapshotAdmissibility ctx)),
    ("C3", .ok (c3ActionVocabulary host decision contract)),
    ("C4", .ok (c4TargetScope host decision ctx)),
    ("C5", .ok (c5FactsCitation host decision ctx)),
    ("C6", .ok (c6DerivationChains host decision ctx store)),
    ("C7", c7FreshnessAndPreconditions host decision ctx fresh contract now),
    ("C8", .ok (c8PolicyInvariants host decision ctx)),
    ("C9", .ok (c9ActuationAuthorization host decision)),
    ("C10", .ok (c10Recordability decision))]

/-- The first refusal, with the name of its check. -/
def firstRefusal : List (String × Except String (Option String)) → Except String ValidationResult
  | []                    => .ok ⟨true, "", ""⟩
  | (code, check) :: rest => do
    match ← check with
    | some reason => return ⟨false, code, reason⟩
    | none        => firstRefusal rest

/-- `validate_decision`; the error is the class of an exception that escapes it. -/
def validateDecision (fresh : ControlContext) (contract : ContractSpec) (now : String)
    (store : Option FactStore) : Except String ValidationResult :=
  firstRefusal (checks host decision ctx fresh contract now store)

end Checks

/-! ### Admission -/

lemma firstReason_eq_none {reasons : List (Except String (Option String))} :
    firstReason reasons = .ok none ↔ ∀ check ∈ reasons, check = .ok none := by
  induction reasons with
  | nil => simp [firstReason]
  | cons check rest ih =>
    rw [List.forall_mem_cons, ← ih, firstReason]
    cases check with
    | error e => simp [bind, Except.bind]
    | ok reason =>
      cases reason with
      | none => simp [bind, Except.bind]
      | some reason => simp [bind, Except.bind, pure, Except.pure]

lemma firstRefusal_admitted {refusals : List (String × Except String (Option String))} :
    (∃ r, firstRefusal refusals = .ok r ∧ r.admitted) ↔ ∀ c ∈ refusals, c.2 = .ok none := by
  induction refusals with
  | nil => simp [firstRefusal]
  | cons c rest ih =>
    obtain ⟨code, check⟩ := c
    rw [List.forall_mem_cons, ← ih, firstRefusal]
    cases check with
    | error e => simp [bind, Except.bind]
    | ok reason =>
      cases reason with
      | none => simp [bind, Except.bind]
      | some reason => simp [bind, Except.bind, pure, Except.pure]

lemma validateDecision_admitted {host : Host} {decision : ControlDecision}
    {ctx fresh : ControlContext} {contract : ContractSpec} {now : String}
    {store : Option FactStore} :
    (∃ r, validateDecision host decision ctx fresh contract now store = .ok r ∧ r.admitted) ↔
      c1SnapshotBinding host decision ctx = none ∧ c2SnapshotAdmissibility ctx = none ∧
      c3ActionVocabulary host decision contract = none ∧ c4TargetScope host decision ctx = none ∧
      c5FactsCitation host decision ctx = none ∧
      c6DerivationChains host decision ctx store = none ∧
      c7FreshnessAndPreconditions host decision ctx fresh contract now = .ok none ∧
      c8PolicyInvariants host decision ctx = none ∧ c9ActuationAuthorization host decision = none ∧
      c10Recordability decision = none := by
  rw [validateDecision, firstRefusal_admitted]
  simp [checks]

end AgenticDynamics.Context
