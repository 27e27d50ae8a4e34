import AgenticDynamics.Library.Script
import AgenticDynamics.Control.LeaseRegistry

/-!
# Admission

`AdmissionController.admit` and the calls of the lease registry it makes, as scripts over the
registry's contents: the model policy, the budget lease, one concurrency lease for each scope,
the admission record, and the unwinding when any of them refuses.
-/

namespace AgenticDynamics.Control

open Python Script

/-! ### The registry -/

/-- The contents of Redis: the scope hashes, whose fields are unique, the index and the caps. -/
structure Registry where
  scopes : String → Dict Stored
  index : Dict String
  caps : String → Option String
  unique : ∀ key, ((scopes key).map Prod.fst).Nodup

namespace Registry

def empty : Registry := ⟨fun _ => [], [], fun _ => none, fun _ => List.nodup_nil⟩

def grant (expired : Dict Lease) (key : String) (l : Lease) (reg : Registry) : Registry where
  scopes := Function.update reg.scopes key (grantScope expired l (reg.scopes key))
  index := grantIndex expired l key reg.index
  caps := reg.caps
  unique := by
    intro k
    by_cases hk : k = key
    · subst hk
      simpa [grantScope] using Dict.nodup_set (Dict.nodup_eraseAll (reg.unique k))
    · simpa [hk] using reg.unique k

def drop (leaseId key : String) (reg : Registry) : Registry where
  scopes := Function.update reg.scopes key (Dict.erase leaseId (reg.scopes key))
  index := Dict.erase leaseId reg.index
  caps := reg.caps
  unique := by
    intro k
    by_cases hk : k = key
    · subst hk
      simpa using Dict.nodup_erase (reg.unique k)
    · simpa [hk] using reg.unique k

end Registry

/-! ### What can be raised -/

inductive Denial
  | policy (runId model : String)
  | provider (runId : String) (e : LeaseError)
  | percent (raw : String)
  | dollars (raw : String)
  | ceiling (raw : String)
  | unknownCost (runId model : String)
  | budget (runId model : String) (e : LeaseError)
  | concurrency (runId model : String) (e : LeaseError) (unwind : String)
  | record (runId : String) (e : LeaseError) (unwind : String)

def unwindClause (unwind : String) : String :=
  if unwind = "" then "" else " (release during unwind also failed: " ++ unwind ++ ")"

def Denial.message (rt : Runtime) : Denial → String
  | policy runId model =>
    "admission denied for run " ++ rt.repr (.str runId) ++ ": model \"" ++ model ++
      "\" is pro-tier — refused by default (operator, 2026-09-24: \"stop using pro\"). " ++
      "Set FINOPS_ALLOW_PRO=1 to override. The sanctioned split: volume on " ++
      "\"openai/gpt-5.6-luna\"; the adversarial review on \"openai/gpt-6-astra\"."
  | provider runId e =>
    "admission denied for run " ++ rt.repr (.str runId) ++ ": " ++ e.message rt
  | percent raw =>
    "FINOPS_WINDOW_RESERVE_PERCENT=" ++ rt.repr (.str raw) ++ " is not a number — refusing " ++
      "rather than falling back to a default the operator did not choose"
  | dollars raw =>
    "FINOPS_RESERVE_USD=" ++ rt.repr (.str raw) ++ " is not a dollar amount — an unparseable " ++
      "cost is a refusal, never 0.0"
  | ceiling raw =>
    "FINOPS_HARD_CAP_USD=" ++ rt.repr (.str raw) ++ " is not a dollar amount — refusing rather " ++
      "than admitting against an unparseable ceiling"
  | unknownCost runId model =>
    "admission denied for run " ++ rt.repr (.str runId) ++ " on per-token model " ++ model ++
      ": cost_source=unknown. Unknown cost is never free — state the expected spend " ++
      "(AdmissionRequest.amount or FINOPS_RESERVE_USD) or route to a subscription model."
  | budget runId model e =>
    "admission denied for run " ++ rt.repr (.str runId) ++ " on " ++ model ++
      ": budget reservation failed — " ++ e.message rt
  | concurrency runId model e unwind =>
    "admission denied for run " ++ rt.repr (.str runId) ++ " on " ++ model ++
      ": concurrency reservation failed — " ++ e.message rt ++ unwindClause unwind
  | record runId e unwind =>
    "admission denied for run " ++ rt.repr (.str runId) ++
      ": the admission record is not valid — " ++ e.message rt ++ unwindClause unwind

/-- Every exception of a call: the admission errors, and those of other classes. -/
inductive Raised
  | refused (e : LeaseError)
  | denied (d : Denial)
  /-- The `OverflowError` of `float(n)`. -/
  | overflow
  /-- The `ValueError` of the text of an integer with too many digits. -/
  | digits
  /-- Anything Redis raises. -/
  | external (detail : String)

/-- `except AdmissionError: raise` and `except Exception` around a call to Redis. -/
def Raised.guarded (unavailable : String → LeaseError) : Raised → Raised
  | refused e       => .refused e
  | denied d        => .denied d
  | overflow        => .refused (unavailable "int too large to convert to float")
  | digits          => .refused (unavailable "Exceeds the limit for integer string conversion")
  | external detail => .refused (unavailable detail)

/-- The admission errors of the registry, which the controller catches. -/
def Raised.refusal? : Raised → Option LeaseError
  | refused e => some e
  | _         => none

@[simp] lemma Raised.refusal?_refused (e : LeaseError) :
    (Raised.refused e).refusal? = some e := rfl

@[simp] lemma Raised.refusal?_overflow : Raised.overflow.refusal? = none := rfl

def Raised.denying (d : LeaseError → Denial) : Raised → Raised
  | refused e => .denied (d e)
  | other     => other

/-- A check of the registry inside a script. -/
def refuse {α : Type} (x : Except LeaseError α) : Except Raised α := x.mapError .refused

/-- `repr` of an integer exists. -/
def Printable (n : ℤ) : Prop := n.natAbs < 10 ^ 4300

instance (n : ℤ) : Decidable (Printable n) := inferInstanceAs (Decidable (_ < _))

/-! ### The surroundings -/

/-- What a call cannot decide: the clock and the random parts of lease ids at each point of the
run, which transactions lose the race and which commands Redis fails, and the environment. -/
structure AdmissionEnv where
  ns : String
  maxRetries : ℕ
  retries_pos : 0 < maxRetries
  clock : ℕ → ℚ
  token : ℕ → String
  lost : ℕ → Bool
  failure : ℕ → Option String
  releaseLost : ℕ → Bool
  releaseFailure : ℕ → Option String
  environ : String → Option String
  rt : Runtime

namespace AdmissionEnv

/-- The failures of the commands of a reservation. -/
def reserving (env : AdmissionEnv) : Oracle Raised where
  fault n := (env.failure n).map .external
  draw _ := ""

/-- The failures of the commands of a release. -/
def releasing (env : AdmissionEnv) : Oracle Raised where
  fault n := (env.releaseFailure n).map .external
  draw _ := ""

def getenv (env : AdmissionEnv) (name : String) : String := strip ((env.environ name).getD "")

end AdmissionEnv

abbrev RegistryScript := Script Raised Registry

section Calls

variable (env : AdmissionEnv)

/-! ### Reservations -/

/-- One turn of the loop of `_reserve`; none when a watched key was written in between. -/
def reserveAttempt (r : Reservation) : RegistryScript (Option Lease) := do
  let raw ← query fun reg => reg.scopes (scopeKey env.ns r.kind r.scope)
  let now ← sample env.clock
  let (live, expired) ← lift (refuse (partition (.finite now) raw))
  let now ← sample env.clock
  if r.fits live then
    let token ← sample env.token
    match r.lease? token (.finite now) with
    | none   => raise .overflow
    | some l =>
      if ← sample env.lost then pure none
      else do
        execute fun reg => .ok (reg.grant expired (scopeKey env.ns r.kind r.scope) l)
        pure (some l)
  else raise (.refused (r.denial live))

/-- The loop of `_reserve`. -/
def reserveLoop (r : Reservation) : ℕ → RegistryScript Lease
  | 0     => raise (.refused (.contention r.kind r.runId r.scope env.maxRetries))
  | n + 1 => do
    match ← mapError (.guarded (.reserving r.kind r.scope)) (reserveAttempt env r) with
    | some l => pure l
    | none   => reserveLoop r n

/-- `_reserve`. The text of the refusal of a lifetime quotes it. -/
def reserve (r : Reservation) : RegistryScript Lease := do
  if strip r.runId ≠ "" ∧ r.ttlSeconds ≤ 0 ∧ ¬ Printable r.ttlSeconds then raise .digits
  else do
    lift (refuse r.check)
    reserveLoop env r env.maxRetries

def getCap (kind : LeaseKind) (scope : LeaseScope) : RegistryScript (Option PyFloat) := do
  let raw ← mapError (.guarded (.readingCap scope))
    (query fun reg => reg.caps (capKey env.ns kind scope))
  match raw with
  | none      => pure none
  | some text =>
    match env.rt.parseFloat text with
    | some cap => pure (some cap)
    | none     => raise (.refused (.storedCap scope text))

def resolveCap (kind : LeaseKind) (scope : LeaseScope) (explicit : Option PyFloat) :
    RegistryScript Amount :=
  match explicit with
  | some cap => lift (refuse (requireAmount "hard_cap" cap))
  | none     => do
    match ← getCap env kind scope with
    | some cap => lift (refuse (requireAmount "hard_cap" cap))
    | none     => raise (.refused (.noHardCap kind scope))

/-- The boundary between the provider classes. -/
def classBoundary (providerClass : ProviderClass) (runId : String) (costSource : Option CostSource)
    (amount cap : Amount) : Except LeaseError Unit :=
  match providerClass with
  | .perToken =>
    match costSource with
    | none          => .error (.unstatedCost runId)
    | some .unknown => .error (.unknownCost runId)
    | some _        => .ok ()
  | .subscription =>
    if windowPercentMax < cap.value then .error (.percentCap runId cap.value)
    else if windowPercentMax < amount.value then .error (.percentAmount runId amount.value)
    else .ok ()

/-- `reserve_budget` up to its call of `_reserve`. -/
def budgetReservation (providerClass : ProviderClass) (scope : LeaseScope) (amount : PyFloat)
    (runId : String) (costSource : Option CostSource) (hardCap : Option PyFloat) (ttlSeconds : ℤ)
    (metadata : Dict Json) : RegistryScript Reservation := do
  let amount ← lift (refuse (requireAmount "amount" amount))
  let cap ← resolveCap env .budget scope hardCap
  lift (refuse (classBoundary providerClass runId costSource amount cap))
  pure
    { kind := .budget, scope, providerClass, amount, unit := budgetUnit providerClass
      hardCap := cap, runId, costSource, ttlSeconds, metadata }

def reserveBudget (providerClass : ProviderClass) (scope : LeaseScope) (amount : PyFloat)
    (runId : String) (costSource : Option CostSource) (hardCap : Option PyFloat) (ttlSeconds : ℤ)
    (metadata : Dict Json) : RegistryScript Lease := do
  let r ← budgetReservation env providerClass scope amount runId costSource hardCap ttlSeconds
    metadata
  reserve env r

def reserveConcurrency (scope : LeaseScope) (count : ℤ) (runId : String)
    (hardCap : Option PyFloat) (ttlSeconds : ℤ) (metadata : Dict Json) : RegistryScript Lease :=
  match floatOfInt count with
  | none   => raise .overflow
  | some q => do
    let slots ← lift (refuse (requireAmount "count" (.finite q)))
    let cap ← resolveCap env .concurrency scope hardCap
    reserve env
      { kind := .concurrency, scope, providerClass := .subscription, amount := slots
        unit := unitSlots, hardCap := cap, runId, costSource := none, ttlSeconds, metadata }

/-! ### Releases -/

/-- What `release` returns of the value it deleted. -/
def parseReleased (leaseId : String) : Option Stored → Except Raised (Option Lease)
  | none                       => .ok none
  | some (.lease l)            => .ok (some l)
  | some (.malformed detail)   => .error (.refused (.malformed detail))
  | some (.unparseable detail) => .error (.refused (.releasing leaseId detail))

/-- One turn of the loop of `release`; the outer none when the race was lost. -/
def releaseAttempt (leaseId : String) : RegistryScript (Option (Option Lease)) := do
  match ← query fun reg => Dict.get? leaseId reg.index with
  | none     => pure (some none)
  | some key => do
    let raw ← query fun reg => Dict.get? leaseId (reg.scopes key)
    if ← sample env.releaseLost then pure none
    else do
      execute fun reg => .ok (reg.drop leaseId key)
      let released ← lift (parseReleased leaseId raw)
      pure (some released)

def releaseLoop (leaseId : String) : ℕ → RegistryScript (Option Lease)
  | 0     => raise (.refused (.releaseContention leaseId env.maxRetries))
  | n + 1 => do
    match ← mapError (.guarded (.releasing leaseId)) (releaseAttempt env leaseId) with
    | some released => pure released
    | none          => releaseLoop leaseId n

def release (leaseId : String) : RegistryScript (Option Lease) :=
  if strip leaseId = "" then raise (.refused (.blankLeaseId leaseId))
  else against env.releasing (releaseLoop env leaseId env.maxRetries)

/-- What `_release_all` does with one lease: the problem, if releasing it met one. -/
def releaseOrNote (l : Lease) : RegistryScript (Option String) := do
  match ← caught Raised.refusal? (release env l.leaseId) with
  | .ok _    => pure none
  | .error e => pure (some (l.leaseId ++ ": " ++ e.message env.rt))

def releaseAll (leases : List Lease) : RegistryScript String := do
  let problems ← collect (releaseOrNote env) leases
  pure ("; ".intercalate (problems.filterMap id))

end Calls

/-! ### Providers -/

/-- `model.split("/", 1)[0]`. -/
def providerOf (model : String) : String := String.ofList (model.toList.takeWhile (· ≠ '/'))

def providerClassForProvider (rt : Runtime) (provider : String) :
    Except LeaseError ProviderClass :=
  if strip provider = "" then .error (.blankProvider provider)
  else
    let key := rt.lower (strip provider)
    if key = "deepseek" then .ok .perToken
    else if key = "anthropic" ∨ key = "openai" then .ok .subscription
    else .error (.unknownProvider provider)

def providerClassForModel (rt : Runtime) (model : String) : Except LeaseError ProviderClass :=
  if '/' ∈ model.toList then providerClassForProvider rt (providerOf model)
  else .error (.modelId model)

def isDeniedByDefault (model : String) : Bool :=
  model = "deepseek/deepseek-v4-pro" || "/deepseek-v4-pro".toList.isSuffixOf model.toList ||
    model = "openai/gpt-5.6-terra" || model = "openai/gpt-5.6-sol"

/-- `ensure_model_allowed` does not raise. -/
def modelAllowed (env : AdmissionEnv) (model : String) : Bool :=
  !isDeniedByDefault model || (env.environ "FINOPS_ALLOW_PRO").getD "" ≠ ""

/-! ### The admission record -/

structure AdmissionRecord where
  runId : String
  leaseIds : List String
  reservedCostUsd : Option PyFloat
  hardCapUsd : Option PyFloat
  costSource : Option CostSource
  provider : String
  model : String
  expiresAt : Option PyFloat
  worktreeIdentity : String
  resultNamespace : String

namespace AdmissionRecord

def isRealNumber : Option PyFloat → Bool
  | some x => x.isFinite
  | none   => false

/-- `repr` of a float or `None`. -/
def reprFloat (rt : Runtime) (x : Option PyFloat) : String := rt.repr ((x.map Json.float).getD .null)

/-- `repr` of a tuple of strings. -/
def reprTuple (rt : Runtime) (items : List String) : String :=
  "(" ++ ", ".intercalate (items.map fun s => rt.repr (.str s)) ++
    (if items.length = 1 then ",)" else ")")

/-- What is wrong with the shape of the record. -/
def problems (rt : Runtime) (r : AdmissionRecord) : List String :=
  (([("run_id", r.runId), ("provider", r.provider), ("model", r.model),
      ("worktree_identity", r.worktreeIdentity), ("result_namespace", r.resultNamespace)].filter
      fun field => strip field.2 = "").map fun field =>
        field.1 ++ " must be a non-empty string (got " ++ rt.repr (.str field.2) ++ ")") ++
  (if r.leaseIds.isEmpty || r.leaseIds.any (fun i => strip i = "") then
    ["lease_ids must be a non-empty sequence of lease ids (got " ++ reprTuple rt r.leaseIds ++
      ") — an admitted run holds at least one lease"] else []) ++
  (if isRealNumber r.expiresAt then []
    else ["expires_at must be epoch seconds (got " ++ reprFloat rt r.expiresAt ++ ")"]) ++
  (if isRealNumber r.reservedCostUsd && !(r.reservedCostUsd.getD (.finite 0)).lt (.finite 0) then []
    else ["reserved_cost_usd must be a non-negative number (got " ++
      reprFloat rt r.reservedCostUsd ++ ") — a missing cost is an error, never 0.0"]) ++
  (if r.costSource.isSome then [] else ["cost_source must be a CostSource (got None)"])

def classRules (r : AdmissionRecord) : ProviderClass → Except LeaseError Unit
  | .perToken =>
    let reserved := r.reservedCostUsd.getD (.finite 0)
    if r.costSource = some .unknown then .error (.recordUnknown r.runId r.provider)
    else match r.hardCapUsd with
      | none     => .error (.recordCap r.provider none)
      | some cap =>
        if !cap.isFinite || cap.le (.finite 0) then .error (.recordCap r.provider (some cap))
        else if reserved.le (.finite 0) then .error (.recordReserved r.provider reserved)
        else if cap.lt reserved then .error (.recordExceeds r.runId reserved cap)
        else .ok ()
  | .subscription =>
    let reserved := r.reservedCostUsd.getD (.finite 0)
    match r.hardCapUsd with
    | some cap => .error (.recordDollarCap r.provider cap)
    | none     =>
      if PyFloat.lt (.finite 0) reserved then .error (.recordDollars r.provider reserved)
      else .ok ()

def validate (rt : Runtime) (r : AdmissionRecord) : Except LeaseError Unit :=
  let problems := r.problems rt
  if problems ≠ [] then .error (.incompleteRecord problems)
  else do
    let providerClass ← providerClassForProvider rt r.provider
    r.classRules providerClass

end AdmissionRecord

/-! ### Requests -/

structure AdmissionRequest where
  runId : String
  model : String
  worktreeIdentity : String
  resultNamespace : String
  amount : Option PyFloat := none
  costSource : Option CostSource := none
  hardCapUsd : Option PyFloat := none
  budgetScope : Option LeaseScope := none
  budgetCap : Option PyFloat := none
  concurrencyScopes : List LeaseScope := []
  enforceConcurrency : Bool := true
  slots : ℤ := 1
  concurrencyCaps : LeaseScope → Option PyFloat := fun _ => none
  ttlSeconds : ℤ := 3600
  metadata : Dict Json := []

namespace AdmissionRequest

def resolvedBudgetScope (req : AdmissionRequest) : Except LeaseError LeaseScope :=
  match req.budgetScope with
  | some scope => .ok scope
  | none       => LeaseScope.make .provider (providerOf req.model)

def resolvedConcurrencyScopes (env : AdmissionEnv) (req : AdmissionRequest) :
    Except LeaseError (List LeaseScope) :=
  if !req.enforceConcurrency then .ok []
  else if req.concurrencyScopes ≠ [] then .ok req.concurrencyScopes
  else do
    let fleet := orElse (some (env.getenv "FINOPS_FLEET_SCOPE")) "default"
    let scope ← LeaseScope.make .fleet fleet
    .ok [scope]

/-- The metadata of a lease; later keys win. -/
def leaseMetadata (req : AdmissionRequest) (kind : String) : Dict Json :=
  [("worktree_identity", Json.str req.worktreeIdentity),
    ("result_namespace", .str req.resultNamespace), ("model", .str req.model),
    ("kind", .str kind)].foldl (fun d kv => Dict.set kv.1 kv.2 d) req.metadata

end AdmissionRequest

def resolveReservation (env : AdmissionEnv) (model : String) (amount : Option PyFloat)
    (costSource : Option CostSource) : Except Raised (PyFloat × CostSource) := do
  match ← refuse (providerClassForModel env.rt model) with
  | .subscription =>
    let raw := env.getenv "FINOPS_WINDOW_RESERVE_PERCENT"
    match amount with
    | some x => .ok (x, costSource.getD .estimated)
    | none   =>
      if raw = "" then .ok (.finite 1, costSource.getD .estimated)
      else match env.rt.parseFloat raw with
        | some x => .ok (x, costSource.getD .estimated)
        | none   => .error (.denied (.percent raw))
  | .perToken =>
    let raw := env.getenv "FINOPS_RESERVE_USD"
    match amount with
    | some x => .ok (x, costSource.getD .estimated)
    | none   =>
      if raw = "" then .ok (.finite 0, costSource.getD .unknown)
      else match env.rt.parseFloat raw with
        | some x => .ok (x, costSource.getD .estimated)
        | none   => .error (.denied (.dollars raw))

def resolveHardCapUsd (env : AdmissionEnv) (model : String) (hardCapUsd : Option PyFloat) :
    Except Raised (Option PyFloat) := do
  match ← refuse (providerClassForModel env.rt model) with
  | .subscription => .ok none
  | .perToken     =>
    let raw := env.getenv "FINOPS_HARD_CAP_USD"
    match hardCapUsd with
    | some x => .ok (some x)
    | none   =>
      if raw = "" then .ok none
      else match env.rt.parseFloat raw with
        | some x => .ok (some x)
        | none   => .error (.denied (.ceiling raw))

/-! ### The decision -/

structure Admission where
  record : AdmissionRecord
  budgetLease : Lease
  concurrencyLeases : List Lease

/-- What is settled before the first reservation. -/
structure Priced where
  providerClass : ProviderClass
  amount : PyFloat
  costSource : CostSource
  hardCapUsd : Option PyFloat

section Admit

variable (env : AdmissionEnv) (req : AdmissionRequest)

def price : Except Raised Priced := do
  if !modelAllowed env req.model then .error (.denied (.policy req.runId req.model))
  else
    let providerClass ← (providerClassForModel env.rt req.model).mapError
      fun e => .denied (.provider req.runId e)
    let (amount, costSource) ← resolveReservation env req.model req.amount req.costSource
    let hardCapUsd ← resolveHardCapUsd env req.model req.hardCapUsd
    if providerClass = .perToken ∧ costSource = .unknown then
      .error (.denied (.unknownCost req.runId req.model))
    else .ok { providerClass, amount, costSource, hardCapUsd }

/-- The arguments `admit` gives `reserve_budget`, up to its call of `_reserve`. -/
def budgetRequest (p : Priced) : RegistryScript Reservation := do
  let scope ← lift (refuse req.resolvedBudgetScope)
  budgetReservation env p.providerClass scope p.amount req.runId (some p.costSource) req.budgetCap
    req.ttlSeconds (req.leaseMetadata "budget")

def takeBudget (p : Priced) : RegistryScript Lease := do
  let scope ← lift (refuse req.resolvedBudgetScope)
  reserveBudget env p.providerClass scope p.amount req.runId (some p.costSource) req.budgetCap
    req.ttlSeconds (req.leaseMetadata "budget")

def takeSlots (scope : LeaseScope) : RegistryScript Lease :=
  reserveConcurrency env scope req.slots req.runId (req.concurrencyCaps scope) req.ttlSeconds
    (req.leaseMetadata "concurrency")

/-- The loop over the scopes: the leases taken, and the refusal that ended it early. -/
def takeScopes : List LeaseScope → List Lease →
    RegistryScript (List Lease × Option LeaseError)
  | [], taken            => pure (taken, none)
  | scope :: rest, taken => do
    match ← caught Raised.refusal? (takeSlots env req scope) with
    | .ok l    => takeScopes rest (taken ++ [l])
    | .error e => pure (taken, some e)

/-- The concurrency leases, in the `try` that also resolves their scopes. -/
def takeConcurrency : RegistryScript (List Lease × Option LeaseError) :=
  match req.resolvedConcurrencyScopes env with
  | .ok scopes => takeScopes env req scopes []
  | .error e   => pure ([], some e)

/-- The record of the leases taken, budget first. -/
def recordOf (p : Priced) (budget : Lease) (slots : List Lease) : AdmissionRecord where
  runId := req.runId
  leaseIds := (budget :: slots).map Lease.leaseId
  reservedCostUsd := some (if p.providerClass = .perToken then p.amount else .finite 0)
  hardCapUsd := p.hardCapUsd
  costSource := some p.costSource
  provider := providerOf req.model
  model := req.model
  expiresAt := some ((slots.map Lease.expiresAt).foldl PyFloat.min budget.expiresAt)
  worktreeIdentity := req.worktreeIdentity
  resultNamespace := req.resultNamespace

/-- `admit`. -/
def admitRequest : RegistryScript Admission := do
  let p ← lift (price env req)
  let budget ← mapError (.denying (.budget req.runId req.model)) (takeBudget env req p)
  let (slots, failed) ← takeConcurrency env req
  match failed with
  | some e => do
    let unwind ← releaseAll env (budget :: slots)
    raise (.denied (.concurrency req.runId req.model e unwind))
  | none =>
    let record := recordOf req p budget slots
    match record.validate env.rt with
    | .ok ()   => pure { record, budgetLease := budget, concurrencyLeases := slots }
    | .error e => do
      let unwind ← releaseAll env (budget :: slots)
      raise (.denied (.record req.runId e unwind))

end Admit

end AgenticDynamics.Control
