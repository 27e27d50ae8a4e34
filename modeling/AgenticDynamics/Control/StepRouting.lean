import AgenticDynamics.Library.Python

/-!
# Routing a step

The model of a workflow step: a pinned one, or the best of the pool, or of its allowed part, by a
weighted score over the measured signals. The costs carry the price of leaving the model of the
step before. The floats are exact but for the rounding of each operation, of which only its
monotonicity is used.
-/

namespace AgenticDynamics.Control.Routing

open Python

structure Rounding where
  round : ℚ → ℚ
  mono : Monotone round
  zero : round 0 = 0

def Rounding.exact : Rounding where
  round := id
  mono := monotone_id
  zero := rfl

/-- Measured signals of one model; none where a signal is not measured. -/
structure ModelSignals where
  correctness : Option ℚ := none
  cost : Option ℚ := none
  efficiency : Option ℚ := none
  cacheHitRate : Option ℚ := none
  constraintScore : Option ℚ := none
  codeQualityScore : Option ℚ := none
  noveltyScore : Option ℚ := none
  compositeScore : Option ℚ := none
  edgeCaseCoverage : Option ℚ := none

/-- The keys of `SIGNAL_FIELDS`. -/
def signalFields : List String :=
  ["correctness", "cost", "efficiency", "cache_hit_rate", "constraint_score",
    "code_quality_score", "novelty_score", "composite_score", "edge_case_coverage"]

def ModelSignals.get (sig : ModelSignals) : String → Option ℚ
  | "correctness"        => sig.correctness
  | "cost"               => sig.cost
  | "efficiency"         => sig.efficiency
  | "cache_hit_rate"     => sig.cacheHitRate
  | "constraint_score"   => sig.constraintScore
  | "code_quality_score" => sig.codeQualityScore
  | "novelty_score"      => sig.noveltyScore
  | "composite_score"    => sig.compositeScore
  | "edge_case_coverage" => sig.edgeCaseCoverage
  | _                    => none

structure Objective where
  signal : String
  direction : String := "maximize"
  weight : ℚ := 1

/-- The keys of a phase that select its model. -/
structure Phase where
  model : Option String := none
  allowedModels : Option (List String) := none

structure StepSelector where
  pinned : Option String
  allowed : List String

def parseStepSelector (phase : Phase) : StepSelector where
  pinned := phase.model.filter (· ≠ "")
  allowed := phase.allowedModels.getD []

/-- `validate_step_selector`; `repr` writes the ids. -/
def validateStepSelector (repr : String → String) (phase : Phase) (pool : List String) :
    List String :=
  (if phase.model.isSome && phase.allowedModels.isSome then
    ["phase declares both 'model' and 'allowed_models'; use exactly one"] else []) ++
  (match phase.model with
    | some mid =>
      if mid ∉ pool then ["pinned model " ++ repr mid ++ " is not in model_pool"] else []
    | none     => []) ++
  match phase.allowedModels with
  | none     => []
  | some []  => ["allowed_models must be a non-empty list"]
  | some ids =>
    (if ¬ ids.Nodup then ["allowed_models contains duplicate ids"] else []) ++
    (ids.filter (· ∉ pool)).map fun mid =>
      "allowed_models entry " ++ repr mid ++ " is not in model_pool"

structure RouteState where
  pool : List String
  prevModel : Option String := none
  prevCacheReadTokens : ℤ := 0

/-- The two rates of a model that are read. -/
structure Pricing where
  input : ℚ
  cacheRead : ℚ

/-- A call of `route_step` but for its phase, with the prices and the rounding that it meets. -/
structure RouteCall extends RouteState where
  r : Rounding := .exact
  getPricing : String → String → Option Pricing := fun _ _ => none
  objectives : List Objective
  signals : Dict ModelSignals

section Model

variable (q : RouteCall)

def RouteCall.cacheSwitchPenalty (prevModel : Option String) (tokens : ℤ) : ℚ :=
  match prevModel.filter (· ≠ "") with
  | none      => 0
  | some prev =>
    if tokens ≤ 0 then 0
    else
      let (provider, modelId) := Python.partition '/' prev
      match q.getPricing (if provider = "" then prev else provider) modelId with
      | none         => 0
      | some pricing =>
        let spread := max (q.r.round (pricing.input - pricing.cacheRead)) 0
        q.r.round (q.r.round (tokens * spread) / 1000000)

def RouteCall.effectiveCost (model : String) (sig : ModelSignals) : ℚ :=
  let cost := sig.cost.getD 0
  match q.prevModel.filter (· ≠ "") with
  | some prev =>
    if model ≠ prev then
      q.r.round (cost + q.cacheSwitchPenalty q.prevModel q.prevCacheReadTokens)
    else cost
  | none      => cost

def RouteCall.normalize (value lo hi : ℚ) (direction : String) : ℚ :=
  if q.r.round (hi - lo) < 1 / 10 ^ 12 then 1 / 2
  else
    let v := q.r.round (q.r.round (value - lo) / q.r.round (hi - lo))
    if direction = "maximize" then v else q.r.round (1 - v)

/-- The objectives of `_score_eligible`. -/
def RouteCall.valid : List Objective := q.objectives.filter (·.signal ∈ signalFields)

/-- What a candidate is scored by: its measured signal, the cost with the price of a switch. -/
def RouteCall.measured (model signal : String) : Option ℚ := do
  let sig ← Dict.get? model q.signals
  let v ← sig.get signal
  some (if signal = "cost" then q.effectiveCost model sig else v)

/-- An entry of `ranges`. -/
def RouteCall.range (eligible : List String) (signal : String) : Option (ℚ × ℚ) := do
  let vals := eligible.filterMap fun m => q.measured m signal
  let lo ← vals.min?
  let hi ← vals.max?
  some (lo, hi)

/-- The sums of a candidate, `total_w` and `weighted`, after one more objective. -/
def RouteCall.addObjective (eligible : List String) (model : String) (sums : ℚ × ℚ)
    (obj : Objective) : ℚ × ℚ :=
  match q.range eligible obj.signal, q.measured model obj.signal with
  | some (lo, hi), some v =>
    (q.r.round (sums.1 + obj.weight),
      q.r.round (sums.2 + q.r.round (obj.weight * q.normalize v lo hi obj.direction)))
  | _, _                  => sums

structure Scored where
  model : String
  score : ℚ
  cost : ℚ
  deriving DecidableEq

/-- The body of the loop of `_score_eligible` over the candidates. -/
def RouteCall.scoreOf (eligible : List String) (model : String) : Option Scored := do
  let sig ← Dict.get? model q.signals
  let (totalW, weighted) := q.valid.foldl (q.addObjective eligible model) (0, 0)
  if totalW ≤ 0 then none
  else some ⟨model, q.r.round (weighted / totalW), q.effectiveCost model sig⟩

def RouteCall.scoreEligible (eligible : List String) : List Scored :=
  eligible.filterMap (q.scoreOf eligible)

/-- The key of `_select`; tuples are compared lexicographically. -/
def RouteCall.selectKey (t : Scored) : ℚ ×ₗ ℕ ×ₗ ℚ :=
  toLex (t.score, toLex (if some t.model = q.prevModel then 1 else 0, -t.cost))

/-- `_select`; none where `max` raises on an empty list. -/
def RouteCall.select (scored : List Scored) : Option String :=
  ((scored.mergeSort fun s t => s.model ≤ t.model).argmax q.selectKey).map Scored.model

/-- The candidates of a step that is not pinned. -/
def RouteCall.eligible (phase : Phase) : List String :=
  if (parseStepSelector phase).allowed = [] then q.pool
  else q.pool.filter (· ∈ (parseStepSelector phase).allowed)

def RouteCall.routeStep (phase : Phase) : Except String String :=
  match (parseStepSelector phase).pinned with
  | some mid => .ok mid
  | none     =>
    match q.eligible phase with
    | []         =>
      .error ("no eligible model for step: allowed_models intersects the pool empty " ++
        "(validate at load)")
    | first :: _ =>
      match q.select (q.scoreEligible (q.eligible phase)) with
      | some model => .ok model
      | none       =>
        match q.prevModel.filter (· ≠ "") with
        | some prev => .ok (if prev ∈ q.eligible phase then prev else first)
        | none      => .ok first

end Model

end AgenticDynamics.Control.Routing
