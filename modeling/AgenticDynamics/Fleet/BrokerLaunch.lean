import AgenticDynamics.Fleet.BrokerContract

/-!
# The launch path of the broker

The broker checks a request twice, by its typed contract and by the scope model, expands the profile
that it names and writes the mounts into the arguments of docker, which reads them back by its own
grammar.
-/

namespace AgenticDynamics.Fleet.Broker

open Python

/-! ### Leases -/

section Lease

variable (env : Surroundings)

def leaseRequestFields : List String :=
  ["reserved_cost_usd", "hard_cap_usd", "budget_lease_id", "concurrency_lease_id", "expires_at"]

def carries (request : Dict Json) (name : String) : Bool := (Dict.get? name request).isSome

/-- `_is_real_number`, and the float; an integer out of range raises. -/
def realNumber (value : Json) : Except String (Option PyFloat) :=
  match value with
  | .int _   => do
    let x ← value.toFloat env.host
    return if x.isFinite then some x else none
  | .float x => .ok (if x.isFinite then some x else none)
  | _        => .ok none

def fieldList (names : List String) : String := env.host.repr (.arr (names.map .str))

def budgetIdErrors (request : Dict Json) : List String :=
  let refused := ["budget_lease_id must be a non-empty string (got " ++
    env.host.repr (field "budget_lease_id" request) ++
    ") — an admitted run holds at least a budget lease"]
  match field "budget_lease_id" request with
  | .str s => if strip s = "" then refused else []
  | _      => refused

def concurrencyIdErrors (request : Dict Json) : List String :=
  match field "concurrency_lease_id" request with
  | .str _ => []
  | value  => ["concurrency_lease_id must be a string, possibly empty (got " ++
      env.host.repr value ++ ")"]

/-- What was reserved, and what is wrong with it. -/
def reservedErrors (request : Dict Json) : Except String (Option PyFloat × List String) := do
  let value := field "reserved_cost_usd" request
  let refused := ["reserved_cost_usd must be a finite non-negative number (got " ++
    env.host.repr value ++ ") — a missing cost is an error, never 0.0"]
  match ← realNumber env value with
  | some x => return if PyFloat.lt x (.finite 0) then (none, refused) else (some x, [])
  | none   => return (none, refused)

def capErrors (reserved : Option PyFloat) (request : Dict Json) : Except String (List String) := do
  let cap := field "hard_cap_usd" request
  let given := field "reserved_cost_usd" request
  match cap with
  | .null =>
    return if reserved.any fun x => PyFloat.lt (.finite 0) x then
      ["hard_cap_usd is None (subscription class, no dollar cap) but reserved_cost_usd=" ++
        env.host.repr given ++ " > 0 — dollars were reserved without a ceiling"] else []
  | cap =>
    let refused := ["hard_cap_usd must be a positive number or None (got " ++ env.host.repr cap ++
      ") — None means 'subscription class', never 'no limit'"]
    match ← realNumber env cap with
    | none   => return refused
    | some c =>
      if PyFloat.le c (.finite 0) then return refused
      return if reserved.any fun x => PyFloat.lt c x then
        ["reserved_cost_usd " ++ given.text env.host ++ " exceeds hard_cap_usd " ++
          cap.text env.host] else []

def expiryErrors (request : Dict Json) : Except String (List String) := do
  let value := field "expires_at" request
  return if (← realNumber env value).isSome then [] else
    ["expires_at must be finite epoch seconds (got " ++ env.host.repr value ++
      ") — a lease with no expiry can wedge a scope forever"]

def validateLeaseFields (required : Bool) (request : Dict Json) : Except String (List String) := do
  let present := leaseRequestFields.filter (carries request)
  let missing := leaseRequestFields.filter fun name => ¬ carries request name
  if present = [] then
    return if required then ["lease block missing entirely: expected " ++
      fieldList env leaseRequestFields ++
      " (admission is armed, so every spend request must carry its leases)"] else []
  if missing ≠ [] then
    return ["partial lease block: " ++ fieldList env missing ++ " absent while " ++
      fieldList env present ++ " present — a half-declared lease is never treated as no lease"]
  let (reserved, reservedWrong) ← reservedErrors env request
  let capWrong ← capErrors env reserved request
  let expiryWrong ← expiryErrors env request
  return budgetIdErrors env request ++ concurrencyIdErrors env request ++ reservedWrong ++
    capWrong ++ expiryWrong

end Lease

/-! ### The scope model -/

/-- A mount target of the contract: its category and its mode. -/
abbrev ContractTarget := String × Option String

def fixedContractTargets : Dict ContractTarget :=
  [(worktreeTarget, "worktree", some "rw"), (resultsTarget, "results", none),
    (repoTarget, "repo", some "ro"), (repoGitTarget, "repo-git", some "rw"),
    (stateTarget, "state", some "rw")]

def withAuthDirs (cfg : PathConfig) (targets : Dict ContractTarget) : Dict ContractTarget :=
  cfg.authDirs.foldl (fun d p => Dict.set p.text ("auth", some "ro") d) targets

def contractTargets (cfg : PathConfig) : Dict ContractTarget :=
  Dict.set authCredFile ("auth-file", some "ro")
    (withAuthDirs cfg
      (Dict.set cfg.gitDir.text ("repo-alias-git", some "rw")
        (Dict.set cfg.repoRoot.text ("repo-alias", some "ro") fixedContractTargets)))

def cloneContractTargets (cfg : PathConfig) : Dict ContractTarget :=
  withAuthDirs cfg
    [(repoTarget, "repo-clone", none), (resultsTarget, "results", none),
      (stateTarget, "state", some "rw"), (authCredFile, "auth-file", some "ro")]

def verifierReadonlyCategories : List String :=
  ["worktree", "repo", "repo-git", "repo-alias", "repo-alias-git", "repo-clone"]

section Scope

variable (env : Surroundings) (cfg : PathConfig)

/-- `for m in value`, each item being read by `(m or {}).get`; the error is the exception's
class. -/
def mountItems (value : Json) : Except String (List (Dict Json)) := do
  let items ← if value.truthy then value.toList else .ok []
  items.mapM fun m =>
    match m with
    | .obj fields => .ok fields
    | m           => if m.truthy then .error "AttributeError" else .ok []

def listedMount (m : Dict Json) : Mount where
  source := (Json.orElse (Dict.get? "source" m) (.str "")).text env.host
  target := textField env "target" m
  mode := textField env "mode" m

def mountsSharedSurface (m : Mount) : Bool :=
  let src := env.resolve m.source
  let gitDir := env.resolve cfg.gitDir.text
  m.target ∈ [worktreeTarget, repoGitTarget, cfg.gitDir.text] ||
    (cfg.repoRoot.text ≠ repoTarget && m.target = cfg.repoRoot.text) ||
    (m.source ≠ "" && (src = env.resolve cfg.worktreesRoot.text || gitDir.isPrefixOf src ||
      src = env.resolve cfg.repoRoot.text))

/-- What step 3 of `validate_spawn` finds wrong with one mount; the clone is none in the shared
world. -/
def mountError (scope : String) (sc : ScopeConfig) (isVerifier : Bool) (clone : Option Json)
    (m : Mount) : Option String :=
  let contract := if clone.isSome then cloneContractTargets cfg else contractTargets cfg
  let quote (s : String) : String := env.host.repr (.str s)
  let ref := (clone.getD .null).text env.host
  if clone.isSome ∧ mountsSharedSurface env cfg m then
    some ("step 3: mount target " ++ quote m.target ++ " (source " ++ quote m.source ++
      ") is the SHARED worktree/.git surface — a clone-world cell mounts its own run clone " ++
      "(runs_root/<run-id>/repo), never the shared worktree or the shared .git")
  else match Dict.get? m.target contract with
    | none =>
      some ("step 3: mount target " ++ quote m.target ++ (if clone.isSome then
        " is outside the clone-world contract (the shared worktree/.git surface is not " ++
          "mountable by a run-clone cell)"
        else " is outside the four-mount contract + the D-2 auth set"))
    | some (category, contractMode) =>
      if clone.isSome ∧ m.target = repoTarget ∧ m.source ≠ "" ∧ m.source ≠ ref then
        some ("step 3: the /repo mount sources " ++ quote m.source ++ ", but a clone-world cell's " ++
          "repo must source from ITS run clone " ++ env.host.repr (clone.getD .null) ++
          " (runs_root/<run-id>/repo)")
      else if isVerifier then
        if category ∉ verifierReadonlyCategories then
          some ("step 3: verifier mount " ++ quote m.target ++ " (category " ++ quote category ++
            ") is outside the read-only candidate surface — a verifier carries no " ++
            "results/state/auth mounts")
        else if m.mode ≠ "ro" then
          some ("step 3: verifier mount " ++ quote m.target ++ " mode " ++ quote m.mode ++
            " != ro — the verifier cannot write its candidate (read-only-for-candidate)")
        else none
      else if category = "results" then
        if m.mode ≠ sc.resultsMode then
          some ("step 3: results mount mode " ++ quote m.mode ++ " != scope " ++ scope ++
            " results_mode " ++ quote sc.resultsMode)
        else none
      else if category = "repo-clone" then
        if m.mode ∉ ["ro", "rw"] then
          some ("step 3: /repo clone mount mode " ++ quote m.mode ++ " not in ro/rw")
        else none
      else if some m.mode ≠ contractMode then
        some ("step 3: mount " ++ quote m.target ++ " mode " ++ quote m.mode ++ " != contract " ++
          optionRepr env contractMode)
      else none

/-- Step 3 of `validate_spawn`. -/
def mountErrors (scope : String) (sc : ScopeConfig) (isVerifier : Bool) (request : Dict Json) :
    Except String (List String) := do
  let cloneRef := field "run_clone" request
  let clone := if cloneRef.truthy then some cloneRef else none
  let ref := cloneRef.text env.host
  let listed ← mountItems ((Dict.get? "mounts" request).getD (.arr []))
  let mounts := listed.map (listedMount env)
  let strayed := if clone.isSome ∧ ¬ isRunCloneDir env cfg ref then
    ["step 3: run_clone " ++ env.host.repr cloneRef ++ " is not a runs_root/<run-id>/repo clone " ++
      "path — a clone-world request must name the run's private clone"] else []
  let unmounted :=
    if clone.isSome ∧ ¬ mounts.any fun m => m.target = repoTarget ∧ m.source = ref then
      ["step 3: a clone-world request must mount its repo from the run clone (" ++
        env.host.repr cloneRef ++ ") at /repo — no /repo clone mount present"] else []
  return strayed ++ mounts.filterMap (mountError env cfg scope sc isVerifier clone) ++ unmounted

/-- `(request.get("env", {}) or {}).items()`. -/
def envItems (request : Dict Json) : Except String (Dict Json) :=
  match (Dict.get? "env" request).getD (.obj []) with
  | .obj items => .ok items
  | value      => if value.truthy then .error "AttributeError" else .ok []

/-- Step 5 of `validate_spawn`, at one variable. -/
def writeFlagError (scope : String) (sc : ScopeConfig) (kv : String × Json) : Option String :=
  if kv.1 ∉ ["FINOPS_KB_WRITE", "FINOPS_ACTUATION_ARMED"] then none
  else if kv.2.text env.host ∉ ["1", "true", "True", "yes", "on"] then none
  else if kv.1 = "FINOPS_ACTUATION_ARMED" then
    some "step 5: FINOPS_ACTUATION_ARMED is never set in the ladder (G2)"
  else if ¬ sc.writeFlag then
    some ("step 5: scope " ++ scope ++ " does not authorize FINOPS_KB_WRITE=1 (undeclared " ++
      "write flag)")
  else none

/-- Step 6 of `validate_spawn`; the gate is armed or not, and the clock reads `now`. -/
def leaseErrors (armed : Bool) (now : PyFloat) (isVerifier : Bool) (request : Dict Json) :
    Except String (List String) := do
  let wrong ← validateLeaseFields env (armed && !isVerifier) request
  if wrong ≠ [] then return wrong.map ("step 6: " ++ ·)
  match Dict.get? "expires_at" request with
  | none       => return []
  | some value =>
    let expires ← value.toFloat env.host
    return if PyFloat.le expires now then
      ["step 6: lease expired at " ++ value.text env.host ++ " (now " ++
        (Json.float now).text env.host ++ ") — the admission's claim is gone; re-admit before " ++
        "spawning"] else []

def validateSpawn (phaseScopes : Dict String) (armed : Bool) (now : PyFloat)
    (request : Dict Json) : Except String (List String) := do
  let phase := textField env "phase" request
  let scope := textField env "scope" request
  let some sc := Dict.get? scope scopeConfigs |
    return ["step 1: scope " ++ env.host.repr (.str scope) ++ " is not in the closed five-scope " ++
      "vocabulary ['adversarial_readonly', 'implementation', 'proposal_write', " ++
      "'research_readonly', 'review_readonly']"]
  if Dict.get? phase phaseScopes ≠ some scope then
    return ["step 2: phase " ++ env.host.repr (.str phase) ++ " is not authorized for scope " ++
      env.host.repr (.str scope) ++ " (authorized: " ++
      optionRepr env (Dict.get? phase phaseScopes) ++ ")"]
  let isVerifier := (field "verifier" request).truthy
  let mounts ← mountErrors env cfg scope sc isVerifier request
  let network := textField env "network" request
  let items ← envItems request
  let lease ← leaseErrors env armed now isVerifier request
  return mounts ++ (if network = sc.network then [] else
      ["step 4: network " ++ env.host.repr (.str network) ++ " != scope " ++ scope ++ " network " ++
        env.host.repr (.str sc.network)]) ++
    items.filterMap (writeFlagError env scope sc) ++ lease

end Scope

/-! ### Docker -/

section Docker

/-- The text of a mount behind `-v`. -/
def Mount.spec (m : Mount) : String := m.source ++ ":" ++ m.target ++ ":" ++ m.mode

variable (env : Surroundings)

def buildLaunchArgv (request : Dict Json) (mounts : List Mount) : Except String (List String) := do
  let items ← envItems request
  let command ← ((Dict.get? "command" request).getD (.arr [])).toList
  return ["docker", "run", "--rm", "-i", "-w", repoTarget] ++
    (mounts.flatMap fun m => ["-v", m.spec]) ++
    ["--network", ((Dict.get? "network" request).getD (.str launchNetwork)).text env.host] ++
    (items.flatMap fun kv => ["-e", kv.1 ++ "=" ++ kv.2.text env.host]) ++
    [textField env "image_digest" request] ++ command.map (Json.text env.host)

/-- What docker reads in a text behind `-v`; none stands for an invalid specification. -/
def readMount (spec : String) : Option Mount :=
  match split ':' spec with
  | [source, target, mode] =>
    if source ≠ "" ∧ mode ∈ ["ro", "rw"] then some ⟨source, target, mode⟩ else none
  | _                      => none

/-- The mounts that docker reads in the options of `docker run`, which end at the image. -/
def readOptions : List String → Option (List Mount)
  | "--rm" :: rest           => readOptions rest
  | "-i" :: rest             => readOptions rest
  | "-w" :: _ :: rest        => readOptions rest
  | "--network" :: _ :: rest => readOptions rest
  | "-e" :: _ :: rest        => readOptions rest
  | "-v" :: spec :: rest     => do
    let m ← readMount spec
    let ms ← readOptions rest
    return m :: ms
  | _                        => some []

/-- The mounts that docker reads in its arguments. -/
def readMounts : List String → Option (List Mount)
  | "docker" :: "run" :: options => readOptions options
  | _                            => none

end Docker

/-! ### Launching -/

section Launch

variable (env : Surroundings) (hostConfig : PathConfig) (armed : Bool) (now : PyFloat)

/-- What ends a launch before docker is called. -/
inductive Refusal
  | request (errors : List String)
  | raised (cls : String)

/-- `validation_config_for_request`. -/
def validationConfig (request : Dict Json) : Except String PathConfig := do
  let view := field "view" request
  return if (← knownView view) ∧ isText "container" view then containerViewConfig hostConfig
    else hostConfig

/-- `request.get("run_clone")` as `mounts_for_profile` takes it. -/
def clonePath (request : Dict Json) : Option String :=
  match field "run_clone" request with
  | .null => none
  | value => some (value.text env.host)

/-- `launch` up to the arguments of docker. -/
def launch : Json → Except Refusal (List String)
  | .obj request => do
    let cfg ← (validationConfig hostConfig request).mapError .raised
    let errors ← (validateLaunchRequest env cfg (.obj request)).mapError .raised
    if errors ≠ [] then throw (.request errors)
    let phaseScopes := [(textField env "phase" request, textField env "scope" request)]
    let scopeErrors ← (validateSpawn env cfg phaseScopes armed now request).mapError .raised
    if scopeErrors ≠ [] then throw (.request scopeErrors)
    let some mounts := mountsForProfile hostConfig (textField env "mount_profile" request)
        (textField env "state_namespace" request) (clonePath env request) |
      throw (.request [])
    (buildLaunchArgv env request mounts).mapError .raised
  | request      => do
    let errors ← (validateLaunchRequest env hostConfig request).mapError .raised
    throw (.request errors)

end Launch

end AgenticDynamics.Fleet.Broker
