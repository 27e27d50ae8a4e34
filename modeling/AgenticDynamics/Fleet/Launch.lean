import AgenticDynamics.Library.Python

/-!
# Launching a cell

How the outcome of one docker run reaches the workflow: the launch broker turns it into an outcome
with a named state, the spawn wrapper passes the outcome on or refuses, and the two docker executors
classify it by its exit code and by the result envelope its output ends with.
-/

namespace AgenticDynamics.Fleet

open Python

/-! ### The broker -/

/-- What `subprocess.run` makes of the docker command. -/
inductive DockerRun
  | exited (returncode : ℤ) (stdout stderr : String)
  | timedOut
  | unavailable (detail : String)
  | raised (typeName detail : String)

/-- A typed launch request: what the broker's two validations find wrong with it, and its
timeout. -/
structure LaunchRequest where
  errors : List String
  scopeErrors : List String
  timeoutSeconds : Json

/-- What `launch` raises. -/
inductive LaunchError
  | request (errors : List String)
  | unavailable (detail : String)
  | other (typeName detail : String)

inductive BrokerState
  | dryRun | ok | runFailed | refused | dockerUnavailable | serverError
  deriving DecidableEq

def BrokerState.value : BrokerState → String
  | dryRun            => "DRY_RUN"
  | ok                => "OK"
  | runFailed         => "RUN_FAILED"
  | refused           => "REFUSED"
  | dockerUnavailable => "DOCKER_UNAVAILABLE"
  | serverError       => "SERVER_ERROR"

/-- The outcome of a launch; `launch` itself leaves out the state and the errors. -/
structure Outcome where
  ok : Bool
  returncode : Option ℤ
  stdout : String
  stderr : String
  state : BrokerState := .ok
  errors : List String := []

section Broker

variable (rt : Runtime) (request : LaunchRequest) (dryRun : Bool) (run : DockerRun)

def launch : Except LaunchError Outcome :=
  if request.errors ≠ [] then .error (.request request.errors)
  else if request.scopeErrors ≠ [] then .error (.request request.scopeErrors)
  else if dryRun then .ok { ok := true, returncode := none, stdout := "", stderr := "" }
  else match run with
    | .timedOut =>
      .ok
        { ok := false, returncode := none, stdout := ""
          stderr := "docker run exceeded timeout_seconds=" ++ request.timeoutSeconds.text rt }
    | .exited returncode stdout stderr =>
      .ok { ok := returncode = 0, returncode := some returncode, stdout, stderr }
    | .unavailable detail      => .error (.unavailable detail)
    | .raised typeName detail => .error (.other typeName detail)

/-- `serve_request` on a launch. -/
def serveRequest : Outcome :=
  match launch rt request dryRun run with
  | .error (.request errors) =>
    { ok := false, state := .refused, errors, returncode := none, stdout := "", stderr := "" }
  | .error (.unavailable detail) =>
    { ok := false, state := .dockerUnavailable, returncode := none, stdout := ""
      stderr := "docker is unavailable to the host-side broker (" ++ detail ++
        ") — is the engine installed and is the broker unit's PATH correct? (state " ++
        BrokerState.dockerUnavailable.value ++ ")" }
  | .error (.other typeName detail) =>
    { ok := false, state := .serverError, returncode := none, stdout := ""
      stderr := typeName ++ ": " ++ detail ++ " (state " ++ BrokerState.serverError.value ++ ")" }
  | .ok outcome =>
    if dryRun then { outcome with state := .dryRun }
    else { outcome with state := if outcome.ok then .ok else .runFailed }

end Broker

/-! ### The spawn wrapper -/

/-- `_broker_outcome_or_raise`; the error carries the errors of the `SpawnValidationError`. -/
def brokerOutcomeOrRaise (outcome : Outcome) : Except (List String) Outcome :=
  match outcome.state with
  | .refused =>
    .error (if outcome.errors ≠ [] then outcome.errors
      else ["the launch broker refused the request"])
  | .dockerUnavailable =>
    .error [orElse (some outcome.stderr)
      "the host-side broker cannot reach docker (state DOCKER_UNAVAILABLE)"]
  | .serverError =>
    .error [orElse (some outcome.stderr) "the launch broker faulted (state SERVER_ERROR)"]
  | _ => .ok outcome

/-- One call of `spawn_sibling`: what its own validations find wrong, the text of the
`BrokerError` when the broker cannot be reached, the request and the docker run behind it. -/
structure Spawn where
  errors : List String
  typedErrors : List String
  seam : Option String
  request : LaunchRequest
  run : DockerRun

def spawnSibling (rt : Runtime) (spawn : Spawn) : Except (List String) Outcome :=
  if spawn.errors ≠ [] then .error spawn.errors
  else if spawn.typedErrors ≠ [] then .error spawn.typedErrors
  else match spawn.seam with
    | some text => .error [text]
    | none      => brokerOutcomeOrRaise (serveRequest rt spawn.request false spawn.run)

/-! ### The result envelope -/

/-- The envelope the lines are the text of, if they are one; the error is the class of an
exception other than `JSONDecodeError`. -/
def envelopeOf (rt : Runtime) (lines : List String) : Except String (Option (Dict Json)) :=
  match rt.loads ("\n".intercalate lines) with
  | .ok (.obj fields) =>
    .ok (if (Dict.get? "ok" fields).isSome then some fields else none)
  | .ok _ => .ok none
  | .error (typeName, _) =>
    if typeName = "JSONDecodeError" then .ok none else .error typeName

/-- The loop of `_parse_envelope`: a later line is tried first. -/
def scanEnvelope (rt : Runtime) : List String → Except String (Option (Dict Json))
  | []           => .ok none
  | line :: rest => do
    match ← scanEnvelope rt rest with
    | some envelope => .ok (some envelope)
    | none => if strip line = "\x7b" then envelopeOf rt (line :: rest) else .ok none

def parseEnvelope (rt : Runtime) (stdout : String) : Except String (Option (Dict Json)) :=
  if stdout = "" then .ok none else scanEnvelope rt (splitlines stdout)

/-! ### The executors -/

inductive StepState
  | ok | failed | awaiting | refused
  deriving DecidableEq

def classify (rt : Runtime) (outcome : Outcome) :
    Except String (StepState × Option (Dict Json)) := do
  let envelope ← parseEnvelope rt outcome.stdout
  if outcome.returncode = some 10 then .ok (.awaiting, envelope)
  else if outcome.returncode ≠ none ∧ outcome.returncode ≠ some 0 then .ok (.failed, envelope)
  else match envelope with
    | none        => .ok (.ok, none)
    | some fields =>
      match Dict.get? "awaiting" fields, Dict.get? "ok" fields with
      | some (.bool true), _  => .ok (.awaiting, some fields)
      | _, some (.bool false) => .ok (.failed, some fields)
      | _, _                  => .ok (.ok, some fields)

/-- `text[:800]`. -/
def clip (text : String) : String := String.ofList (text.toList.take 800)

/-- One item of `dict(items)`; a key that is no string is never looked up. -/
def pairOf : Json → Except String (Option (String × Json))
  | .arr [.str key, value] => .ok (some (key, value))
  | .arr [key, _]          => if key.hashable then .ok none else .error "TypeError"
  | .arr _                 => .error "ValueError"
  | .str s                 =>
    match s.toList with
    | [key, value] => .ok (some (String.ofList [key], .str (String.ofList [value])))
    | _            => .error "ValueError"
  | _                      => .error "TypeError"

/-- `dict(value)`. -/
def dictOf : Json → Except String (Dict Json)
  | .obj fields => .ok fields
  | .arr items  => do
    let pairs ← items.mapM pairOf
    .ok ((pairs.filterMap id).foldl (fun d kv => Dict.set kv.1 kv.2 d) [])
  | .str s      => if s = "" then .ok [] else .error "ValueError"
  | _           => .error "TypeError"

def phaseFromEnvelope (envelope : Dict Json) : Except String (Option (Dict Json)) :=
  match Json.orElse (Dict.get? "phases" envelope) (.arr []) with
  | .arr []           => .ok none
  | .arr (phase :: _) => do
    let fields ← dictOf phase
    .ok (some fields)
  | .obj _            => .error "KeyError"
  | .str _            => .error "ValueError"
  | _                 => .error "TypeError"

/-- How a field of the phase record is converted. -/
inductive Convert
  | text | integer | number | items | flag | raw

def Convert.apply (rt : Runtime) (value : Option Json) : Convert → Except String Json
  | text    => .ok (.str ((Json.orElse value (.str "")).text rt))
  | integer => Json.int <$> (Json.orElse value (.int 0)).toInt rt
  | number  => Json.float <$> (Json.orElse value (.float (.finite 0))).toFloat rt
  | items   => Json.arr <$> (Json.orElse value (.arr [])).toList
  | flag    => .ok (.bool ((value.getD (.bool false)).truthy))
  | raw     => .ok (value.getD .null)

/-- A field of the step result that is copied from the phase record. -/
structure PhaseField where
  name : String
  path : List String
  convert : Convert

/-- `record.get(k, {})...get(k')` along a path. -/
def lookup (record : Dict Json) : List String → Except String (Option Json)
  | []          => .ok none
  | [key]       => .ok (Dict.get? key record)
  | key :: path =>
    match Dict.get? key record with
    | none               => .ok none
    | some (.obj fields) => lookup fields path
    | some _             => .error "AttributeError"

/-- The fields of a step result, copied one after the other. -/
def carry (rt : Runtime) (phase : Dict Json) (fields : List PhaseField) :
    Except String (Dict Json) :=
  fields.mapM fun field => do
    let value ← lookup phase field.path
    let converted ← field.convert.apply rt value
    .ok (field.name, converted)

def agentFields : List PhaseField :=
  [⟨"session_id", ["session_id"], .text⟩,
    ⟨"total_tokens", ["tokens", "total"], .integer⟩,
    ⟨"prompt_tokens", ["tokens", "in"], .integer⟩,
    ⟨"completion_tokens", ["tokens", "out"], .integer⟩,
    ⟨"reasoning_tokens", ["tokens", "reasoning"], .integer⟩,
    ⟨"answer_tokens", ["tokens", "answer"], .integer⟩,
    ⟨"explanation_tokens", ["tokens", "explanation"], .integer⟩,
    ⟨"estimated_cost_usd", ["cost_usd"], .number⟩,
    ⟨"files_created", ["files_created"], .items⟩,
    ⟨"files_modified", ["files_modified"], .items⟩,
    ⟨"cache_read_tokens", ["cache_read_tokens"], .integer⟩,
    ⟨"cache_write_tokens", ["cache_write_tokens"], .integer⟩,
    ⟨"cache_hit_rate", ["cache_hit_rate"], .number⟩,
    ⟨"first_token_at", ["first_token_at"], .raw⟩,
    ⟨"cost_source", ["cost_source"], .text⟩,
    ⟨"reported_cost_usd", ["reported_cost_usd"], .raw⟩,
    ⟨"estimation_method", ["estimation_method"], .raw⟩,
    ⟨"change_detection", ["change_detection"], .text⟩,
    ⟨"change_observation_partial", ["change_observation_partial"], .flag⟩,
    ⟨"confidence", ["confidence"], .raw⟩,
    ⟨"final_response", ["final_response"], .text⟩]

def verifierFields : List PhaseField :=
  [⟨"test_executed_success", ["test_executed_success"], .raw⟩,
    ⟨"tests_passed", ["tests_passed"], .integer⟩,
    ⟨"tests_total", ["tests_total"], .integer⟩]

/-- What the executors read of a step request. -/
structure StepRequest where
  phaseKind : String
  preparedRelativePath : String
  promptSha256 : String

structure StepResult where
  ok : Bool
  state : StepState
  error : String
  exitCode : ℤ
  preparedStepPath : String := ""
  preparedStepPromptSha256 : String := ""
  fields : Dict Json := []

/-- What `execute` raises: a refused spawn, or an exception of the named class. -/
inductive StepError
  | spawn (errors : List String)
  | raised (typeName : String)

/-- `str(exc)` of a `SpawnValidationError`. -/
def spawnErrorText (errors : List String) : String :=
  "spawn refused:\n" ++ "\n".intercalate (errors.map fun error => "  - " ++ error)

section Execute

variable (rt : Runtime) (request : StepRequest) (spawn : Spawn)

/-- `int(outcome.get("returncode", -1) or -1)`. -/
def exitCode (outcome : Outcome) : ℤ :=
  match outcome.returncode with
  | some n => if n = 0 then -1 else n
  | none   => -1

/-- `str(envelope.get("error") or stderr)`. -/
def envelopeError (envelope : Dict Json) (stderr : String) : String :=
  (Json.orElse (Dict.get? "error" envelope) (.str stderr)).text rt

/-- `DockerAgentExecutor.execute`. -/
def executeAgent : Except StepError StepResult := do
  let outcome ← (spawnSibling rt spawn).mapError .spawn
  let (state, found) ← (classify rt outcome).mapError .raised
  let envelope := found.getD []
  let result : StepResult :=
    { ok := state = .ok
      state
      error := clip (envelopeError rt envelope outcome.stderr)
      exitCode := exitCode outcome
      preparedStepPath := request.preparedRelativePath
      preparedStepPromptSha256 := request.promptSha256 }
  match ← (phaseFromEnvelope envelope).mapError .raised with
  | none       => .ok result
  | some phase => do
    let fields ← (carry rt phase agentFields).mapError .raised
    let kept (key fallback : String) : String :=
      (Json.orElse (Dict.get? key phase) (.str fallback)).text rt
    .ok
      { result with
        preparedStepPath := kept "prepared_step_path" request.preparedRelativePath
        preparedStepPromptSha256 := kept "prepared_step_prompt_sha256" request.promptSha256
        fields }

/-- `DockerVerifierExecutor.execute`. -/
def executeVerifier : Except StepError StepResult :=
  if request.phaseKind ≠ "test" then
    .ok
      { ok := false
        state := .refused
        error := "VERIFIER_REFUSED: DockerVerifierExecutor only executes kind:test phases " ++
          "(got kind " ++ rt.repr (.str request.phaseKind) ++ ") — refusing, never a skip"
        exitCode := 20 }
  else match spawnSibling rt spawn with
    | .error errors =>
      .ok
        { ok := false
          state := .failed
          error := clip ("VERIFIER_ERROR: spawn refused: SpawnValidationError(" ++
            rt.repr (.str (spawnErrorText errors)) ++ ")")
          exitCode := 20 }
    | .ok outcome => do
      let (state, found) ← (classify rt outcome).mapError .raised
      let envelope := found.getD []
      let phase ← (phaseFromEnvelope envelope).mapError .raised
      let phaseError := (Json.orElse (Dict.get? "error" (phase.getD [])) (.str "")).text rt
      let result : StepResult :=
        { ok := state = .ok
          state
          error := clip (orElse (some phaseError) (envelopeError rt envelope outcome.stderr))
          exitCode := exitCode outcome }
      match phase with
      | none       => .ok result
      | some phase => do
        let fields ← (carry rt phase verifierFields).mapError .raised
        .ok { result with fields }

end Execute

end AgenticDynamics.Fleet
