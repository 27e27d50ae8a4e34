import AgenticDynamics.Library.Python

/-!
# The contract of the launch broker

What a typed launch request may say, and which directories of the host its mount profile stands for.
The spawn wrapper and the broker both check a request against it.
-/

namespace AgenticDynamics.Fleet.Broker

open Python

/-! ### Paths -/

structure AbsPath where
  parts : List String
  deriving DecidableEq

namespace AbsPath

/-- `str(path)`. -/
def text (p : AbsPath) : String := "/" ++ "/".intercalate p.parts

/-- `path / rel`, where the parts of `rel` are given. -/
def join (p : AbsPath) (rel : List String) : AbsPath := ⟨p.parts ++ rel⟩

end AbsPath

/-- `PathConfig`: the directories of the host that the fleet mounts. -/
structure PathConfig where
  repoRoot : AbsPath
  gitDir : AbsPath
  worktreesRoot : AbsPath
  runsRoot : AbsPath
  resultsDir : AbsPath
  stateRoot : AbsPath
  authHome : AbsPath

def authDirRelatives : List (List String) :=
  [[".claude"], [".local", "bin"], [".local", "share", "claude"], [".opencode", "bin"]]

def PathConfig.authDirs (cfg : PathConfig) : List AbsPath := authDirRelatives.map cfg.authHome.join

/-- `cfg.auth_home / ".local/share/opencode/auth.json"`. -/
def PathConfig.credential (cfg : PathConfig) : AbsPath :=
  cfg.authHome.join [".local", "share", "opencode", "auth.json"]

/-- The surroundings of a check: the built-ins, and the parts of the absolute path that a path
resolves to. -/
structure Surroundings where
  host : Runtime
  resolve : String → List String

def isRunCloneDir (env : Surroundings) (cfg : PathConfig) (path : String) : Bool :=
  let root := env.resolve cfg.runsRoot.text
  let rel := (env.resolve path).drop root.length
  root.isPrefixOf (env.resolve path) && rel.length = 2 && rel.getLast? = some "repo"

/-! ### Profiles -/

/-- An entry of `MOUNT_PROFILES`. -/
structure MountProfile where
  resultsMode : Option String
  verifier : Bool
  deriving DecidableEq

def mountProfiles : Dict MountProfile :=
  [("repo_readonly", ⟨some "ro", false⟩), ("implementation_rw", ⟨some "rw", false⟩),
    ("verifier_readonly", ⟨none, true⟩)]

/-- An entry of `SCOPE_CONFIGS`, as far as a launch reads it. -/
structure ScopeConfig where
  resultsMode : String
  network : String
  writeFlag : Bool

def launchNetwork : String := "fleet-net"

def scopeConfigs : Dict ScopeConfig :=
  [("research_readonly", ⟨"ro", launchNetwork, false⟩),
    ("implementation", ⟨"rw", launchNetwork, true⟩),
    ("review_readonly", ⟨"rw", launchNetwork, false⟩),
    ("proposal_write", ⟨"rw", launchNetwork, false⟩),
    ("adversarial_readonly", ⟨"ro", launchNetwork, false⟩)]

/-! ### Mounts -/

structure Mount where
  source : String
  target : String
  mode : String
  deriving DecidableEq

def worktreeTarget : String := "/tmp"

def resultsTarget : String := "/app/experiments/results"

def repoTarget : String := "/repo"

def repoGitTarget : String := "/repo/.git"

def stateTarget : String := "/state"

def authCredFile : String := "/auth/opencode_auth.json"

/-- The parts that `sanitize_namespace` keeps. -/
def namespaceParts (ns : String) : List String :=
  (split '/' (String.ofList (ns.toList.map fun c => if c = '\\' then '/' else c))).filter fun p =>
    p ∉ ["", ".", ".."]

def sanitizeNamespace (ns : String) : String :=
  if namespaceParts ns = [] then "unnamed" else "/".intercalate (namespaceParts ns)

/-- `cfg.state_root / sanitize_namespace(ns)`. -/
def stateSource (cfg : PathConfig) (ns : String) : AbsPath :=
  cfg.stateRoot.join (if namespaceParts ns = [] then ["unnamed"] else namespaceParts ns)

/-- The surface of a verifier: its candidate, read-only. -/
def verifierMounts (cfg : PathConfig) : Option String → List Mount
  | some clone => [⟨clone, repoTarget, "ro"⟩]
  | none       =>
    [⟨cfg.worktreesRoot.text, worktreeTarget, "ro"⟩, ⟨cfg.repoRoot.text, repoTarget, "ro"⟩,
      ⟨cfg.gitDir.text, repoGitTarget, "ro"⟩, ⟨cfg.repoRoot.text, cfg.repoRoot.text, "ro"⟩,
      ⟨cfg.gitDir.text, cfg.gitDir.text, "ro"⟩]

/-- The mounts of the agents and their state. -/
def privateMounts (cfg : PathConfig) (ns : String) : List Mount :=
  (cfg.authDirs.map fun d => ⟨d.text, d.text, "ro"⟩) ++
    [⟨(stateSource cfg ns).text, stateTarget, "rw"⟩, ⟨cfg.credential.text, authCredFile, "ro"⟩]

/-- The surface of an agent, by the name and the results mode of its profile. -/
def agentMounts (cfg : PathConfig) (profile resultsMode ns : String) : Option String → List Mount
  | some clone =>
    [⟨cfg.resultsDir.text, resultsTarget, resultsMode⟩,
      ⟨clone, repoTarget, if profile = "repo_readonly" then "ro" else "rw"⟩] ++ privateMounts cfg ns
  | none       =>
    [⟨cfg.worktreesRoot.text, worktreeTarget, "rw"⟩,
      ⟨cfg.resultsDir.text, resultsTarget, resultsMode⟩, ⟨cfg.repoRoot.text, repoTarget, "ro"⟩,
      ⟨cfg.gitDir.text, repoGitTarget, "rw"⟩, ⟨cfg.repoRoot.text, cfg.repoRoot.text, "ro"⟩,
      ⟨cfg.gitDir.text, cfg.gitDir.text, "rw"⟩] ++ privateMounts cfg ns

/-- `mounts_for_profile`; none stands for the `LaunchRequestError` of an unknown profile. -/
def mountsForProfile (cfg : PathConfig) (profile ns : String) (runClone : Option String) :
    Option (List Mount) :=
  (Dict.get? profile mountProfiles).map fun p =>
    if p.verifier then verifierMounts cfg runClone
    else agentMounts cfg profile (Python.orElse p.resultsMode "rw") ns runClone

/-! ### Views -/

def views : List String := ["host", "container"]

def containerViewConfig (cfg : PathConfig) : PathConfig :=
  { cfg with
    repoRoot := ⟨["app"]⟩
    gitDir := ⟨["app", ".git"]⟩
    resultsDir := ⟨["app", "experiments", "results"]⟩ }

/-! ### The typed request -/

section Validate

variable (env : Surroundings)

def launchRequestFields : List String :=
  ["image_digest", "network", "mount_profile", "state_namespace", "command", "timeout_seconds",
    "phase", "scope", "mounts", "env", "verifier", "run_clone", "view", "reserved_cost_usd",
    "hard_cap_usd", "budget_lease_id", "concurrency_lease_id", "expires_at"]

/-- `request.get(name)`. -/
def field (name : String) (request : Dict Json) : Json := (Dict.get? name request).getD .null

/-- `value in (None, "")`. -/
def absent : Json → Bool
  | .null  => true
  | .str s => s = ""
  | _      => false

def requiredFields : List String :=
  ["image_digest", "mount_profile", "state_namespace", "command", "network"]

def missingErrors (request : Dict Json) : List String :=
  (requiredFields.filter fun name => absent (field name request)).map fun name =>
    "launch request is missing the typed field " ++ env.host.repr (.str name)

/-- `view in VIEWS`; a value that cannot be hashed raises. -/
def knownView (view : Json) : Except String Bool :=
  match view with
  | .str s => .ok (s ∈ views)
  | value  => if value.hashable then .ok false else .error "TypeError"

def viewErrors (request : Dict Json) : Except String (List String) := do
  let view := field "view" request
  if absent view then return []
  if ← knownView view then return []
  return ["view " ++ env.host.repr view ++ " is not one of ['container', 'host'] — the broker " ++
    "validates a launch request against the view it carries (host = the broker's own config, " ++
    "container = the /app-in-container config a container-tier caller derives)"]

def imageNamespace : List String := ["fleet/base", "fleet/orchestrator", "fleet/supervisor"]

def isLowerDigit (c : Char) : Bool := ('a' ≤ c ∧ c ≤ 'z') ∨ ('0' ≤ c ∧ c ≤ '9')

/-- `JOB_IMAGE_PATTERN`; its end matches before a last line feed. -/
def isJobImage (name : String) : Bool :=
  let chars := name.toList
  let body := chars.drop "fleet/job-".toList.length
  let kept := if body.getLast? = some '\n' then body.dropLast else body
  "fleet/job-".toList.isPrefixOf chars &&
    match kept with
    | first :: rest => isLowerDigit first && rest.all fun c => isLowerDigit c || c = '_' || c = '-'
    | []            => false

def validImageDigest : Json → Bool
  | .str s =>
    let name := (split ':' s).headD ""
    s ≠ "" && (name ∈ imageNamespace || isJobImage name)
  | _      => false

def imageErrors (request : Dict Json) : List String :=
  let image := field "image_digest" request
  if absent image || validImageDigest image then []
  else ["image_digest " ++ env.host.repr image ++ " is outside the closed fleet image namespace " ++
    "['fleet/base', 'fleet/orchestrator', 'fleet/supervisor'] + fleet/job-<name> — the broker " ++
    "executes only images the ladder builds"]

def isText (s : String) : Json → Bool
  | .str s' => s' = s
  | _       => false

def networkErrors (request : Dict Json) : List String :=
  let network := field "network" request
  if absent network || isText launchNetwork network then []
  else ["network " ++ env.host.repr network ++ " != 'fleet-net' — the only cell network"]

/-- `MOUNT_PROFILES.get(profile) if isinstance(profile, str) else None`. -/
def profileOf (request : Dict Json) : Option MountProfile :=
  match field "mount_profile" request with
  | .str profile => Dict.get? profile mountProfiles
  | _            => none

/-- `request.get("verifier") is True`. -/
def isVerifierRequest (request : Dict Json) : Bool :=
  match field "verifier" request with
  | .bool b => b
  | _       => false

/-- `str(request.get(name, ""))`. -/
def textField (name : String) (request : Dict Json) : String :=
  ((Dict.get? name request).getD (.str "")).text env.host

def optionRepr (s : Option String) : String := env.host.repr ((s.map Json.str).getD .null)

def profileErrors (request : Dict Json) : List String :=
  let profile := env.host.repr (field "mount_profile" request)
  match profileOf request with
  | none   =>
    ["mount_profile " ++ profile ++ " is not one of the fixed profiles " ++
      "['implementation_rw', 'repo_readonly', 'verifier_readonly'] — an unknown profile refuses"]
  | some p =>
    let scope := textField env "scope" request
    let expected := (Dict.get? scope scopeConfigs).map ScopeConfig.resultsMode
    (if isVerifierRequest request ∧ ¬ p.verifier then
      ["mount_profile " ++ profile ++ " is not the verifier profile — a verifier request must " ++
        "carry ['verifier_readonly']"] else []) ++
    (if ¬ isVerifierRequest request ∧ p.verifier then
      ["mount_profile " ++ profile ++ " is verifier-only — an agent request cannot carry it"]
      else []) ++
    (if expected ≠ none ∧ p.resultsMode ≠ none ∧ expected ≠ p.resultsMode then
      ["mount_profile " ++ profile ++ " results_mode " ++ optionRepr env p.resultsMode ++
        " != scope " ++ scope ++ " results_mode " ++ optionRepr env expected ++
        " — the profile must match the scope's writability"] else [])

def validStateNamespace : Json → Bool
  | .str s => s ≠ "" && sanitizeNamespace s = s
  | _      => false

def namespaceErrors (request : Dict Json) : List String :=
  let ns := field "state_namespace" request
  if absent ns || validStateNamespace ns then []
  else ["state_namespace " ++ env.host.repr ns ++ " is not a safe relative path (no absolute " ++
    "path, no '..' — a namespace cannot escape the state root)"]

def cloneErrors (cfg : PathConfig) (request : Dict Json) : List String :=
  let runClone := field "run_clone" request
  let invalid := ["run_clone " ++ env.host.repr runClone ++ " is not a valid clone path string"]
  if absent runClone then []
  else match runClone with
    | .str clone =>
      if '\x00' ∈ clone.toList then invalid
      else if isRunCloneDir env cfg clone then []
      else ["run_clone " ++ env.host.repr runClone ++ " is not a runs_root/<run-id>/repo clone " ++
        "path (must be two segments under the runs root " ++ cfg.runsRoot.text ++
        ", the last 'repo')"]
    | _          => invalid

/-- `_valid_command` at the part with the given number; none stands for a valid part. -/
def commandPartError (i : ℕ) : Json → Option String
  | .str part =>
    if part = "" then some ("command[" ++ toString i ++ "] must be a non-empty string")
    else if '\x00' ∈ part.toList ∨ '\n' ∈ part.toList ∨ '\r' ∈ part.toList then
      some ("command[" ++ toString i ++ "] carries a NUL/newline — refused (argv smuggling)")
    else none
  | _         => some ("command[" ++ toString i ++ "] must be a non-empty string")

/-- `_valid_command`; none stands for a valid command. -/
def commandError : Json → Option String
  | .arr (first :: rest) =>
    match (first :: rest).zipIdx.findSome? fun part => commandPartError part.2 part.1 with
    | some why => some why
    | none     =>
      if startsWith (first.text env.host) "-" then
        some ("command[0] " ++ env.host.repr first ++
          " starts with '-' — refused (a docker flag, not a command)")
      else none
  | _                    => some "command must be a non-empty list of strings (a typed argv)"

def commandErrors (request : Dict Json) : List String :=
  match field "command" request with
  | .null    => []
  | .arr []  => []
  | command  => (commandError env command).toList

def timeoutErrors (request : Dict Json) : List String :=
  let timeout := field "timeout_seconds" request
  let refused := ["timeout_seconds " ++ env.host.repr timeout ++ " is not a number in [1, 604800]"]
  match timeout with
  | .null      => []
  | .bool b    => if b then refused else []
  | .int n     => if n = 0 ∨ (1 ≤ n ∧ n ≤ 604800) then [] else refused
  | .float x   =>
    if x = .finite 0 then []
    else if PyFloat.lt x (.finite 1) ∨ PyFloat.lt (.finite 604800) x then refused else []
  | _          => refused

/-- `sorted(set(request) - LAUNCH_REQUEST_FIELDS)`. -/
def unknownFields (request : Dict Json) : List String :=
  ((request.map Prod.fst).dedup.filter (· ∉ launchRequestFields)).mergeSort fun a b => a ≤ b

def validateLaunchRequest (cfg : PathConfig) : Json → Except String (List String)
  | .obj request => do
    if unknownFields request ≠ [] then
      return ["launch request carries unknown field(s) " ++
        env.host.repr (.arr ((unknownFields request).map .str)) ++ " — the typed contract is " ++
        "closed; an arbitrary payload (a raw docker command string, a docker argv) is refused"]
    let view ← viewErrors env request
    return missingErrors env request ++ view ++ imageErrors env request ++
      networkErrors env request ++ profileErrors env request ++ namespaceErrors env request ++
      cloneErrors env cfg request ++ commandErrors env request ++ timeoutErrors env request
  | value        => return ["the broker accepts ONLY a typed launch request (a JSON object), not " ++
    env.host.repr (.str value.typeName) ++ " — a raw docker command string is refused"]

end Validate

end AgenticDynamics.Fleet.Broker
