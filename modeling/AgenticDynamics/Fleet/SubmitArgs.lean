import AgenticDynamics.Library.Lines
import AgenticDynamics.Library.Argparse

/-!
# The arguments of a submitted run

A submit command is validated, written as a command line and parsed again in the container. The
three are written one by one for every field.
-/

namespace AgenticDynamics.Fleet.Submit

open Python Argparse

section Command

variable (rt : Runtime)

/-- `command.get(key)`; a missing value and a null are the same to it. -/
def valueAt (command : Dict Json) (key : String) : Option Json :=
  match Dict.get? key command with
  | some .null => none
  | value      => value

/-- `str(command.get(key, ""))`. -/
def textAt (command : Dict Json) (key : String) : String :=
  ((Dict.get? key command).getD (.str "")).text rt

/-- `str(command.get(key, "") or "")`. -/
def textOrBlank (command : Dict Json) (key : String) : String :=
  (Json.orElse (Dict.get? key command) (.str "")).text rt

def truthyAt (command : Dict Json) (key : String) : Bool :=
  ((Dict.get? key command).map Json.truthy).getD false

/-! ### Validation -/

/-- `MODEL_WHITELIST`, sorted. -/
def modelWhitelist : List String :=
  ["anthropic/claude-haiku-4-5", "anthropic/claude-sonnet-5", "deepseek/deepseek-flash",
    "deepseek/deepseek-v4-flash", "deepseek/deepseek-v4-pro", "openai/gpt-5.6-luna",
    "openai/gpt-5.6-sol", "openai/gpt-5.6-terra", "openai/gpt-6-astra"]

/-- `JOB_IMAGE_PATTERN`; its end may be a line end. -/
def isJobImage (image : String) : Bool :=
  let name := image.toList.drop 10
  let name := if name.getLast? = some '\n' then name.dropLast else name
  let lower := fun (c : Char) => ('a' ≤ c && c ≤ 'z') || ('0' ≤ c && c ≤ '9')
  startsWith image "fleet/job-" && (name.head?.map lower).getD false &&
    name.all fun c => lower c || c = '_' || c = '-'

/-- The checks of a submit that read no field of its arguments, or more than their text. -/
structure OtherChecks where
  spec : Dict Json → List String
  workdir : Dict Json → List String
  launch : Dict Json → List String
  binding : Dict Json → List String

/-- The error unless the value is missing or the check holds of it. -/
def fieldErrors (value : Option Json) (ok : Json → Bool) (error : Json → String) : List String :=
  match value with
  | none       => []
  | some value => if ok value then [] else [error value]

/-- A number, and no boolean, that is not negative; positive where it must be. -/
def numberInRange (positive : Bool) : Json → Bool
  | .int n   => decide (0 ≤ n) && (!positive || decide (0 < n))
  | .float x =>
    !PyFloat.lt x (.finite 0) && (!positive || !PyFloat.le x (.finite 0))
  | _        => false

def admissionNumberErrors (admission : Dict Json) (field : String) (positive : Bool) :
    List String :=
  fieldErrors (valueAt admission field) (numberInRange positive) fun value =>
    "submit: admission." ++ field ++ " must be a " ++
      (if positive then "positive" else "non-negative") ++ " number (got " ++ rt.repr value ++ ")"

def admissionErrors (request : Dict Json) : List String :=
  match valueAt request "admission" with
  | none                  => []
  | some (.obj admission) =>
    (match Dict.get? "required" admission with
      | some (.bool _) => []
      | required       => ["submit: admission.required must be a boolean (got " ++
          rt.repr (required.getD .null) ++ ")"]) ++
    (admissionNumberErrors rt admission "campaign_budget_usd" false ++
    (admissionNumberErrors rt admission "campaign_concurrency" true ++
    (admissionNumberErrors rt admission "reserve_usd" true ++
    admissionNumberErrors rt admission "hard_cap_usd" false)))
  | some admission        =>
    ["submit: admission must be a mapping (got " ++ admission.typeName ++ ")"]

def isNonBlank : Json → Bool
  | .str s => strip s ≠ ""
  | _      => false

def isCount : Json → Bool
  | .int n => 0 ≤ n
  | _      => false

def isBool : Json → Bool
  | .bool _ => true
  | _       => false

def countErrors (execution : Dict Json) (field : String) : List String :=
  fieldErrors (valueAt execution field) isCount fun value =>
    "submit: execution." ++ field ++ " must be a non-negative integer (got " ++
      rt.repr value ++ ")"

def executionErrors (request : Dict Json) : List String :=
  match valueAt request "execution" with
  | none                  => []
  | some (.obj execution) =>
    fieldErrors (valueAt execution "backend")
      (fun value => value.text rt = "opencode" || value.text rt = "claude_cli") (fun value =>
        "submit: execution.backend must be 'opencode' or 'claude_cli' (got " ++
          rt.repr value ++ ")") ++
    (fieldErrors (valueAt execution "thinking_effort") isNonBlank (fun value =>
      "submit: execution.thinking_effort must be a non-blank string (got " ++
        rt.repr value ++ ")") ++
    (countErrors rt execution "thinking_budget_tokens" ++
    (countErrors rt execution "output_token_limit" ++
    (countErrors rt execution "timeout_seconds" ++
    (fieldErrors (valueAt execution "no_commit") isBool (fun value =>
      "submit: execution.no_commit must be a boolean (got " ++ rt.repr value ++ ")") ++
    fieldErrors (valueAt execution "fork_checkpoint") isNonBlank (fun value =>
      "submit: execution.fork_checkpoint must be a non-blank '<workflow>/<attempt_id>' " ++
        "string (got " ++ rt.repr value ++ ")"))))))
  | some execution        =>
    ["submit: execution must be a mapping (got " ++ execution.typeName ++ ")"]

def parentErrors (request : Dict Json) : List String :=
  match valueAt request "parent_run_id" with
  | none       => []
  | some value =>
    if strip (value.text rt) = "" then ["submit: parent_run_id must be a non-blank run id"]
    else if truthyAt request "resume" then []
    else ["submit: parent_run_id declares a continuation — resume must be true"]

def validateSubmitRequest (others : OtherChecks) (request : Dict Json) : List String :=
  let model := textOrBlank rt request "model"
  (if textOrBlank rt request "spec" = "" then ["submit: spec path is required"]
    else others.spec request) ++
  ((if model ∈ modelWhitelist then []
    else ["submit: model " ++ rt.repr (.str model) ++ " is not in the model whitelist " ++
      rt.repr (.arr (modelWhitelist.map .str))]) ++
  ((if textOrBlank rt request "workdir" = "" then ["submit: workdir is required"]
    else others.workdir request) ++
  ((if strip (textOrBlank rt request "goal") = "" then ["submit: goal is required"] else []) ++
  (others.launch request ++
  (fieldErrors (valueAt request "image") (fun value => isJobImage (value.text rt)) (fun value =>
    "submit: image " ++ rt.repr (.str (value.text rt)) ++ " is not a fleet/job-<name> image " ++
      "(the only per-job image namespace a submit may reference — never fleet/base, " ++
      "fleet/orchestrator, fleet/supervisor, or a third-party image)") ++
  (fieldErrors (valueAt request "spec_sha256") (fun value =>
      (value.text rt).length = 64 && (value.text rt).toList.all fun c =>
        "0123456789abcdefABCDEF".toList.contains c) (fun value =>
    "submit: spec_sha256 must be a 64-character hex sha256 digest of the spec file (got " ++
      rt.repr (.str (value.text rt)) ++ ")") ++
  (fieldErrors (valueAt request "resume") isBool (fun value =>
    "submit: resume must be a boolean (got " ++ rt.repr value ++ ")") ++
  (parentErrors rt request ++
  (admissionErrors rt request ++
  (executionErrors rt request ++
  others.binding request))))))))))

/-! ### The command line -/

/-- `command.get(key) or {}` where it is a mapping. -/
def mappingAt (command : Dict Json) (key : String) : Dict Json :=
  match Json.orElse (Dict.get? key command) (.obj []) with
  | .obj fields => fields
  | _           => []

def flagArg (flag : String) (value : Bool) : List String := if value then [flag] else []

/-- The option with the text of its value where that is not none. -/
def someArg (option : String) (value : Option Json) : List String :=
  match value with
  | none       => []
  | some value => [option, value.text rt]

/-- The option with the text of its value where that is true. -/
def truthyArg (option : String) (value : Option Json) : List String :=
  someArg rt option (value.filter Json.truthy)

/-- The arguments of `build_submit_argv` before those of the script. -/
def submitArgvHead (compose composeFile : String) (command : Dict Json) : List String :=
  let admission := mappingAt command "admission"
  [compose, "-f", composeFile, "run", "--rm"] ++
  (if textOrBlank rt command "job_id" = "" then []
    else ["-e", "FINOPS_CELL_ID=" ++ textOrBlank rt command "job_id"]) ++
  (if truthyAt admission "required" then ["-e", "FINOPS_ADMISSION_REQUIRED=1"] else []) ++
  (match valueAt admission "reserve_usd" with
    | none       => []
    | some value => ["-e", "FINOPS_RESERVE_USD=" ++ value.text rt]) ++
  (match valueAt admission "hard_cap_usd" with
    | none       => []
    | some value => ["-e", "FINOPS_HARD_CAP_USD=" ++ value.text rt]) ++
  ["workflow-runner", "python3", "scripts/run_workflow.py"]

def submitArgvTail (command : Dict Json) : List String :=
  let admission := mappingAt command "admission"
  let execution := mappingAt command "execution"
  ["--spec", textAt rt command "spec", "--goal", textAt rt command "goal",
    "--model", textAt rt command "model", "--workdir", textAt rt command "workdir",
    "--orchestrator"] ++
  (flagArg "--resume" (truthyAt command "resume") ++
  ((if textOrBlank rt command "parent_run_id" = "" then []
    else ["--parent-run-id", textAt rt command "parent_run_id"]) ++
  (someArg rt "--campaign-budget-usd" (valueAt admission "campaign_budget_usd") ++
  (someArg rt "--campaign-concurrency" (valueAt admission "campaign_concurrency") ++
  (truthyArg rt "--backend" (Dict.get? "backend" execution) ++
  (truthyArg rt "--thinking-effort" (Dict.get? "thinking_effort" execution) ++
  (someArg rt "--thinking-budget-tokens" (valueAt execution "thinking_budget_tokens") ++
  (someArg rt "--output-token-limit" (valueAt execution "output_token_limit") ++
  (someArg rt "--timeout" (valueAt execution "timeout_seconds") ++
  (flagArg "--no-commit" (truthyAt execution "no_commit") ++
  (truthyArg rt "--fork-checkpoint" (Dict.get? "fork_checkpoint" execution) ++
  truthyArg rt "--cell-image" (Dict.get? "image" command))))))))))))

def buildSubmitArgv (compose composeFile : String) (command : Dict Json) : List String :=
  submitArgvHead rt compose composeFile command ++ submitArgvTail rt command

/-! ### The parser of the script -/

inductive ArgValue where
  | none
  | text (s : String)
  | int (n : ℤ)
  | float (x : PyFloat)
  | bool (b : Bool)

def textOption (fallback : ArgValue) : OptionSpec ArgValue :=
  { action := .store fun s => some (.text s), fallback }

def intOption (fallback : ArgValue) : OptionSpec ArgValue :=
  { action := .store fun s => (rt.parseInt s).map .int, fallback }

def floatOption : OptionSpec ArgValue :=
  { action := .store fun s => (rt.parseFloat s).map .float, fallback := .none }

def flagOption : OptionSpec ArgValue := { action := .flag (.bool true), fallback := .bool false }

/-- `-\d+` or `-\d*\.\d+`, before a line end too. -/
def isNegativeNumber (text : String) : Bool :=
  match text.toList with
  | '-' :: digits =>
    let digits := if digits.getLast? = some '\n' then digits.dropLast else digits
    match digits.dropWhile isDecimal with
    | []              => !digits.isEmpty
    | '.' :: fraction => !fraction.isEmpty && fraction.all isDecimal
    | _               => false
  | _             => false

/-- A token that begins with a hyphen and is no negative number is an option. -/
def optionLike (text : String) : Bool :=
  text.toList.head? = some '-' && !isNegativeNumber text

/-- The parser of `run_workflow.main`. -/
def workflowParser : Parser ArgValue where
  options :=
    [("--spec", { textOption .none with required := true }),
      ("--goal", { textOption .none with required := true }),
      ("--model", { textOption .none with required := true }),
      ("--workdir", { textOption .none with required := true }),
      ("--backend", textOption .none),
      ("--thinking-effort", textOption (.text "high")),
      ("--agent", textOption (.text "")),
      ("--thinking-budget-tokens", intOption rt (.int 0)),
      ("--output-token-limit", intOption rt (.int 0)),
      ("--timeout", intOption rt (.int 1800)),
      ("--phase-watchdog-min", floatOption rt),
      ("--no-commit", flagOption),
      ("--resume", flagOption),
      ("--parent-run-id", textOption (.text "")),
      ("--signals", textOption .none),
      ("--cap-snapshot", flagOption),
      ("--cap-shadow", flagOption),
      ("--no-fact-emit", flagOption),
      ("--change-analysis", flagOption),
      ("--change-analysis-graph", textOption .none),
      ("--no-admission", flagOption),
      ("--campaign-budget-usd", floatOption rt),
      ("--campaign-concurrency", intOption rt .none),
      ("--orchestrator", flagOption),
      ("--fork-checkpoint", textOption .none),
      ("--prepared-step", textOption .none),
      ("--only-phase", textOption .none),
      ("--cell-image", textOption .none)]
  optionLike := optionLike

end Command

end AgenticDynamics.Fleet.Submit
