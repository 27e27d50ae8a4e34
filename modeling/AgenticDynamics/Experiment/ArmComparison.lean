import AgenticDynamics.Library.Accumulate

/-!
# Comparing the arms of an experiment

The weighted loss of every arm over the objectives that are measured somewhere, rounded to four
digits, and the first arm of the least. Floats are exact rational numbers.
-/

namespace AgenticDynamics.Experiment.Arms

open Python

/-- `round(x, 4)`. -/
def round4 (x : ℚ) : ℚ := roundHalfEven (x * 10 ^ 4) / 10 ^ 4

/-- `DEFAULT_OBJECTIVE_FIELDS`. -/
def defaultObjectiveFields : Dict String :=
  [("cost", "cost"), ("quality", "correctness"), ("latency", "latency"), ("sla", "sla"),
    ("value", "value")]

inductive MissingPolicy
  | exclude
  | ignore
  deriving DecidableEq

/-- The value of a metric that `_usable_metric` accepts, as a summand. -/
def usableMetric : Json → Option ℚ
  | .bool b            => some (if b then 1 else 0)
  | .int n             => some n
  | .float (.finite x) => some x
  | _                  => none

/-- The arguments of `compare_arms` but for the results; `str` is that of Python. -/
structure ArmQuery where
  str : Json → String
  armFactor : String
  loss : Dict ℚ
  objectiveFields : Dict String := []
  missingPolicy : MissingPolicy := .exclude
  minCoverage : ℚ := 1

structure Coverage where
  n : ℕ
  total : ℕ
  rate : ℚ

structure ArmStats where
  n : ℕ
  averages : Dict ℚ
  coverage : Dict Coverage
  missingObjectives : List String
  underCoverage : List String
  eligible : Bool
  weightedLoss : Option ℚ

structure Comparison where
  comparisonObjectives : List String
  unmeasuredObjectives : List String
  unmappedObjectives : List String
  emptyState : Option String
  arms : Dict ArmStats
  eligibleArms : List String
  ineligibleArms : Dict (List String × List String)
  bestArm : Option String
  regrets : Dict ℚ

namespace ArmQuery

variable (q : ArmQuery) (results : List (Dict Json))

def fields : Dict String :=
  q.objectiveFields.foldl (fun d kv => d.set kv.1 kv.2) defaultObjectiveFields

/-- The arm of a result. -/
def armOf (r : Dict Json) : Option String :=
  match Dict.get? q.armFactor r with
  | none | some .null => none
  | some arm          => some (q.str arm)

/-- The keys of `arms`. -/
def arms : List String := firsts (results.filterMap q.armOf)

def group (arm : String) : List (Dict Json) := results.filter fun r => q.armOf r = some arm

/-- The usable values of an objective. -/
def values (rows : List (Dict Json)) (obj : String) : List ℚ :=
  match Dict.get? obj q.fields with
  | none     => []
  | some fld => rows.filterMap fun r => (Dict.get? fld r).bind usableMetric

def mapped (obj : String) : Bool := (Dict.get? obj q.fields).isSome

def comparisonObjectives : List String :=
  (q.loss.map Prod.fst).filter fun obj => q.values results obj ≠ []

/-- The share of the rows of an arm with a value. -/
def rate (arm obj : String) : ℚ :=
  (q.values (q.group results arm) obj).length / (q.group results arm).length

def mean (vals : List ℚ) : ℚ := vals.sum / vals.length

/-- The objectives of an arm that have values. -/
def covered (arm : String) : List String :=
  (q.comparisonObjectives results).filter fun obj => q.values (q.group results arm) obj ≠ []

def missing (arm : String) : List String :=
  (q.comparisonObjectives results).filter fun obj => q.values (q.group results arm) obj = []

def under (arm : String) : List String :=
  (q.covered results arm).filter fun obj => q.rate results arm obj < q.minCoverage

/-- The weighted loss before it is rounded. -/
def weighted (arm : String) : ℚ :=
  ((q.covered results arm).map fun obj =>
    (Dict.get? obj q.loss).getD 0 * mean (q.values (q.group results arm) obj)).sum

def eligible (arm : String) : Bool :=
  q.missingPolicy = .ignore || (q.missing results arm = [] && q.under results arm = [])

def weightedLoss (arm : String) : ℚ := round4 (q.weighted results arm)

def armStats (arm : String) : ArmStats where
  n := (q.group results arm).length
  averages := (q.covered results arm).map fun obj =>
    ("avg_" ++ (Dict.get? obj q.fields).getD "",
      round4 (mean (q.values (q.group results arm) obj)))
  coverage := (q.comparisonObjectives results).map fun obj =>
    (obj, ⟨(q.values (q.group results arm) obj).length, (q.group results arm).length,
      round4 (q.rate results arm obj)⟩)
  missingObjectives := q.missing results arm
  underCoverage := q.under results arm
  eligible := q.eligible results arm
  weightedLoss := if q.eligible results arm then some (q.weightedLoss results arm) else none

def eligibleArms : List String := (q.arms results).filter (q.eligible results)

def emptyState : Option String :=
  if q.arms results = [] then some "no_arms"
  else if q.comparisonObjectives results = [] then some "no_measured_objectives"
  else if q.eligibleArms results = [] then some "no_eligible_arms"
  else none

/-- `min` by the weighted loss, the first of the least. -/
def bestArm : Option String :=
  if (q.emptyState results).isSome then none
  else (q.eligibleArms results).argmin (q.weightedLoss results)

/-- `compare_arms`; none stands for the `ValueError` of a coverage out of range. -/
def compareArms : Option Comparison :=
  if 0 ≤ q.minCoverage ∧ q.minCoverage ≤ 1 then
    some
      { comparisonObjectives := q.comparisonObjectives results
        unmeasuredObjectives := (q.loss.map Prod.fst).filter fun obj =>
          q.mapped obj && decide (q.values results obj = [])
        unmappedObjectives := (q.loss.map Prod.fst).filter fun obj => !q.mapped obj
        emptyState := q.emptyState results
        arms := (q.arms results).map fun arm => (arm, q.armStats results arm)
        eligibleArms := q.eligibleArms results
        ineligibleArms := ((q.arms results).filter fun arm => !q.eligible results arm).map
          fun arm => (arm, q.missing results arm, q.under results arm)
        bestArm := q.bestArm results
        regrets := match q.bestArm results with
          | none      => []
          | some best => (q.eligibleArms results).map fun arm =>
            (arm, round4 (q.weightedLoss results arm - q.weightedLoss results best)) }
  else none

end ArmQuery

end AgenticDynamics.Experiment.Arms
