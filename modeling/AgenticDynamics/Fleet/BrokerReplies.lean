import AgenticDynamics.Library.Python

/-!
# The replies of the launch broker

One connection of the broker's socket carries one framed request. A frame is any JSON value; the
broker dispatches it to one of its typed paths and maps what comes of it to an outcome with a named
state.
-/

namespace AgenticDynamics.Fleet.Seam

open Python

/-! ### The dispatched paths -/

inductive Fault
  | refused (errors : List String)
  | os (text : String)
  | other (typeName text : String)

/-- What `subprocess.run` makes of the argv. -/
inductive Process
  | exited (returncode : ℤ) (stdout stderr : String)
  | timedOut
  | raised (fault : Fault)

/-- A dispatched path on one payload: its validations and the argv they end with, the process, and
what writing the process' output to the broker's own streams raises. -/
structure Dispatch where
  argv : Except Fault (List String)
  process : Process
  echo : Option Fault

def outcome (ok : Bool) (argv : List String) (returncode : Option ℤ) (stdout stderr : String) :
    Dict Json :=
  [("ok", .bool ok), ("argv", .arr (argv.map .str)),
    ("returncode", (returncode.map Json.int).getD .null), ("stdout", .str stdout),
    ("stderr", .str stderr)]

/-- How a path returns what became of its process. -/
structure Report where
  /-- The outcome carries the output. -/
  captured : Bool
  /-- The output is written to the broker's own streams. -/
  echoed : Bool
  /-- The outcome's text of a process that ran out of time, where the path bounds it. -/
  expired : Option String

/-- The validations, then the argv alone or the process. -/
def performed (report : Report) (dryRun : Bool) (d : Dispatch) : Except Fault (Dict Json) := do
  let argv ← d.argv
  if dryRun then .ok (outcome true argv none "" "")
  else match d.process with
    | .exited returncode stdout stderr =>
      match if report.echoed then d.echo else none with
      | some fault => .error fault
      | none       =>
        .ok (outcome (returncode = 0) argv (some returncode)
          (if report.captured then stdout else "") (if report.captured then stderr else ""))
    | .timedOut     =>
      match report.expired with
      | some text => .ok (outcome false argv none "" text)
      | none      => .error (.other "TimeoutExpired" "")
    | .raised fault => .error fault

/-- The dispatch of a typed path, by the payload it gets. -/
structure Paths where
  launch : Json → Dispatch
  submit : Json → Dispatch
  fleet : Json → Dispatch

section Serve

variable (rt : Runtime) (paths : Paths)

def launchReport (payload : Json) : Report where
  captured := true
  echoed := false
  expired :=
    let timeout := match payload with
      | .obj fields => (Dict.get? "timeout_seconds" fields).getD .null
      | _           => .null
    some ("docker run exceeded timeout_seconds=" ++ timeout.text rt)

def submitReport : Report := { captured := true, echoed := true, expired := none }

def fleetReport : Report := { captured := false, echoed := false, expired := none }

def launch (payload : Json) (dryRun : Bool) : Except Fault (Dict Json) :=
  performed (launchReport rt payload) dryRun (paths.launch payload)

def submitRun (payload : Json) (dryRun : Bool) : Except Fault (Dict Json) :=
  performed submitReport dryRun (paths.submit payload)

def runFleetCommand (payload : Json) (dryRun : Bool) : Except Fault (Dict Json) :=
  match payload with
  | .obj command =>
    if ((Dict.get? "action" command).getD (.str "")).text rt = "submit" then
      submitRun paths payload dryRun
    else performed fleetReport dryRun (paths.fleet payload)
  | value        =>
    .error (.other "AttributeError"
      ("\x27" ++ value.typeName ++ "\x27 object has no attribute \x27get\x27"))

/-! ### The states -/

inductive State
  | dryRun | ok | runFailed | refused | dockerUnavailable | serverError | pong
  deriving DecidableEq, Repr

def State.value : State → String
  | dryRun            => "DRY_RUN"
  | ok                => "OK"
  | runFailed         => "RUN_FAILED"
  | refused           => "REFUSED"
  | dockerUnavailable => "DOCKER_UNAVAILABLE"
  | serverError       => "SERVER_ERROR"
  | pong              => "PONG"

/-- `sorted(SERVE_VERBS)`. -/
def serveVerbs : List String := ["fleet-command", "launch", "ping", "submit"]

def failure (state : State) (errors : Option (List String)) (stderr : String) : Dict Json :=
  [("ok", .bool false), ("state", .str state.value)] ++
    (errors.map fun es => ("errors", Json.arr (es.map .str))).toList ++
    [("argv", .null), ("returncode", .null), ("stdout", .str ""), ("stderr", .str stderr)]

/-- The handlers of `serve_request`. -/
def handled : Fault → Dict Json
  | .refused errors      => failure .refused (some errors) ""
  | .os text             =>
    failure .dockerUnavailable none ("docker is unavailable to the host-side broker (" ++ text ++
      ") — is the engine installed and is the broker unit's PATH correct? (state " ++
      State.dockerUnavailable.value ++ ")")
  | .other typeName text =>
    failure .serverError none (typeName ++ ": " ++ text ++ " (state " ++ State.serverError.value ++
      ")")

/-- The path of a verb; none for a verb without one. -/
def dispatched (verb : String) (payload : Json) (dryRun : Bool) :
    Option (Except Fault (Dict Json)) :=
  if verb = "launch" then some (launch rt paths payload dryRun)
  else if verb = "submit" then some (submitRun paths payload dryRun)
  else if verb = "fleet-command" then some (runFleetCommand rt paths payload dryRun)
  else none

/-- `(request or {})`; none for a value that has no `get`. -/
def framed (request : Json) : Option (Dict Json) :=
  match request with
  | .obj fields => some fields
  | value       => if value.truthy then none else some []

def verbOf (fields : Dict Json) : String := ((Dict.get? "verb" fields).getD (.str "")).text rt

def dryRunOf (fields : Dict Json) : Bool := ((Dict.get? "dry_run" fields).getD .null).truthy

def payloadOf (fields : Dict Json) : Json := Json.orElse (Dict.get? "request" fields) (.obj [])

/-- `serve_request`; none where it raises. -/
def serveRequest (request : Json) : Option (Dict Json) :=
  (framed request).map fun fields =>
    if verbOf rt fields = "ping" then [("ok", .bool true), ("state", .str State.pong.value)]
    else match dispatched rt paths (verbOf rt fields) (payloadOf fields) (dryRunOf fields) with
      | none                =>
        failure .refused (some ["unknown broker verb " ++ rt.repr (.str (verbOf rt fields)) ++
          " — the typed seam accepts " ++ rt.repr (.arr (serveVerbs.map .str))]) ""
      | some (.error fault) => handled fault
      | some (.ok outcome)  =>
        Dict.set "state" (.str (if dryRunOf fields then State.dryRun
          else if ((Dict.get? "ok" outcome).getD .null).truthy then .ok
          else .runFailed).value) outcome

/-- `_serve_connection`: the reply to a frame, or to one that cannot be read; none where the
connection is dropped without one. -/
def serveConnection (frame : Except String Json) : Option (Dict Json) :=
  match frame with
  | .error text  =>
    some (failure .serverError (some ["the broker could not read the request frame: " ++ text]) "")
  | .ok request => serveRequest rt paths request

/-! ### What is asked of a reply -/

/-- The dispatch of a request, and how its path reports it. -/
def target (fields : Dict Json) : Option (Report × Dispatch) :=
  let payload := payloadOf fields
  if verbOf rt fields = "launch" then some (launchReport rt payload, paths.launch payload)
  else if verbOf rt fields = "submit" then some (submitReport, paths.submit payload)
  else if verbOf rt fields = "fleet-command" then
    match payload with
    | .obj command =>
      if ((Dict.get? "action" command).getD (.str "")).text rt = "submit" then
        some (submitReport, paths.submit payload)
      else some (fleetReport, paths.fleet payload)
    | _            => none
  else none

/-- The reply has the state, an `ok`, and, unless it answers a ping, what became of the process. -/
structure Complete (reply : Dict Json) (named : State) : Prop where
  state : Dict.get? "state" reply = some (.str named.value)
  ok : ∃ b, Dict.get? "ok" reply = some (.bool b)
  process : named ≠ .pong → ∀ key ∈ ["argv", "returncode", "stdout", "stderr"],
    (Dict.get? key reply).isSome

/-- The binary of the request's argv could not be run. -/
def BinaryUnavailable (frame : Json) : Prop :=
  ∃ fields report d argv text, framed frame = some fields ∧
    target rt paths fields = some (report, d) ∧ d.argv = .ok argv ∧ dryRunOf fields = false ∧
    d.process = .raised (.os text)

/-- A validation of the dispatched path raises an `OSError`, or the echo of the output does. -/
def StrayOsError (frame : Json) : Prop :=
  ∃ fields report d text, framed frame = some fields ∧
    target rt paths fields = some (report, d) ∧
    (d.argv = .error (.os text) ∨
      ∃ argv returncode stdout stderr, d.argv = .ok argv ∧ dryRunOf fields = false ∧
        d.process = .exited returncode stdout stderr ∧ report.echoed = true ∧
        d.echo = some (.os text))

/-- The frame gets one complete outcome with a named state, and it is said that docker is
unavailable only where its binary could not be run. -/
def Answered (frame : Json) : Prop :=
  ∃ reply state, serveConnection rt paths (.ok frame) = some reply ∧ Complete reply state ∧
    (state = .dockerUnavailable → BinaryUnavailable rt paths frame)

end Serve

variable {rt : Runtime} {paths : Paths} {frame payload : Json} {fields reply : Dict Json}
  {report : Report} {d : Dispatch} {dryRun : Bool}

/-! ### The dispatched path, by its target -/

lemma dispatched_of_target (h : target rt paths fields = some (report, d)) :
    verbOf rt fields ≠ "ping" ∧
      dispatched rt paths (verbOf rt fields) (payloadOf fields) (dryRunOf fields)
        = some (performed report (dryRunOf fields) d) := by
  unfold target at h
  unfold dispatched
  split_ifs at h ⊢ with launched submitted fleet
  · cases h
    exact ⟨by rw [launched]; decide, rfl⟩
  · cases h
    exact ⟨by rw [submitted]; decide, rfl⟩
  · refine ⟨by rw [fleet]; decide, ?_⟩
    cases payloadEq : payloadOf fields with
    | obj command =>
      simp only [payloadEq] at h
      simp only [runFleetCommand]
      split_ifs at h ⊢ <;> cases h <;> rfl
    | _ => simp [payloadEq] at h

lemma dispatched_of_no_target (h : target rt paths fields = none) :
    dispatched rt paths (verbOf rt fields) (payloadOf fields) (dryRunOf fields) = none ∨
      ∃ typeName text, dispatched rt paths (verbOf rt fields) (payloadOf fields)
        (dryRunOf fields) = some (.error (.other typeName text)) := by
  unfold target at h
  unfold dispatched
  split_ifs at h ⊢ with launched submitted fleet
  · right
    cases payloadEq : payloadOf fields with
    | obj command =>
      simp only [payloadEq] at h
      split_ifs at h
    | _ => exact ⟨_, _, rfl⟩
  · exact .inl rfl

lemma performed_eq_os {text : String} (h : performed report dryRun d = .error (.os text)) :
    d.argv = .error (.os text) ∨ ∃ argv, d.argv = .ok argv ∧ dryRun = false ∧
      (d.process = .raised (.os text) ∨ ∃ returncode stdout stderr,
        d.process = .exited returncode stdout stderr ∧ report.echoed = true ∧
          d.echo = some (.os text)) := by
  unfold performed at h
  cases argvEq : d.argv with
  | error fault =>
    left
    simpa [argvEq, bind, Except.bind] using h
  | ok argv =>
    right
    simp only [argvEq, bind, Except.bind] at h
    refine ⟨argv, rfl, ?_⟩
    cases dryRun with
    | true  => simp at h
    | false =>
      refine ⟨rfl, ?_⟩
      cases processEq : d.process with
      | exited returncode stdout stderr =>
        right
        refine ⟨_, _, _, rfl, ?_⟩
        cases echoedEq : report.echoed with
        | false => simp [processEq, echoedEq] at h
        | true  =>
          refine ⟨rfl, ?_⟩
          cases echoEq : d.echo with
          | none       => simp [processEq, echoedEq, echoEq] at h
          | some fault => simpa [processEq, echoedEq, echoEq] using h
      | timedOut =>
        cases expiredEq : report.expired <;> simp [processEq, expiredEq] at h
      | raised fault =>
        left
        simpa [processEq] using h

lemma performed_eq_ok {result : Dict Json} (h : performed report dryRun d = .ok result) :
    ∃ ok argv returncode stdout stderr, result = outcome ok argv returncode stdout stderr := by
  unfold performed at h
  cases argvEq : d.argv with
  | error fault => simp [argvEq, bind, Except.bind] at h
  | ok argv =>
    simp only [argvEq, bind, Except.bind] at h
    split at h
    · cases h
      exact ⟨_, _, _, _, _, rfl⟩
    · split at h
      · split at h
        · cases h
        · cases h
          exact ⟨_, _, _, _, _, rfl⟩
      · split at h
        · cases h
          exact ⟨_, _, _, _, _, rfl⟩
        · cases h
      · cases h

/-! ### Complete replies -/

lemma complete_failure {named : State} {errors : Option (List String)} {stderr : String} :
    Complete (failure named errors stderr) named := by
  refine ⟨?_, ⟨false, ?_⟩, fun _ key mem => ?_⟩
  · simp [failure, Dict.get?]
  · simp [failure, Dict.get?]
  · simp only [List.mem_cons, List.not_mem_nil, or_false] at mem
    obtain rfl | rfl | rfl | rfl := mem <;> cases errors <;> simp [failure, Dict.get?]

lemma complete_outcome {named : State} {ok : Bool} {argv : List String} {returncode : Option ℤ}
    {stdout stderr : String} :
    Complete (Dict.set "state" (.str named.value) (outcome ok argv returncode stdout stderr))
      named := by
  refine ⟨?_, ⟨ok, ?_⟩, fun _ key mem => ?_⟩
  · simp [Dict.get?_set]
  · rw [Dict.get?_set]
    simp [outcome, Dict.get?]
  · rw [Dict.get?_set]
    simp only [List.mem_cons, List.not_mem_nil, or_false] at mem
    obtain rfl | rfl | rfl | rfl := mem <;> simp [outcome, Dict.get?]

lemma complete_handled (fault : Fault) :
    ∃ named, Complete (handled fault) named ∧
      (named = .dockerUnavailable → ∃ text, fault = .os text) := by
  cases fault with
  | refused errors      => exact ⟨.refused, complete_failure, fun h => by cases h⟩
  | os text             => exact ⟨.dockerUnavailable, complete_failure, fun _ => ⟨text, rfl⟩⟩
  | other typeName text => exact ⟨.serverError, complete_failure, fun h => by cases h⟩

lemma State.value_injective : Function.Injective State.value := by
  intro a b h
  cases a <;> cases b <;> first | rfl | (exact absurd h (by decide))

lemma Complete.unique {a b : State} (ha : Complete reply a) (hb : Complete reply b) : a = b := by
  have same := ha.state.symm.trans hb.state
  exact State.value_injective (by simpa using same)

/-! ### Every request -/

lemma serveRequest_of_os {text : String} (isFramed : framed frame = some fields)
    (isTarget : target rt paths fields = some (report, d))
    (raises : performed report (dryRunOf fields) d = .error (.os text)) :
    serveRequest rt paths frame = some (handled (.os text)) := by
  obtain ⟨verb, isDispatched⟩ := dispatched_of_target isTarget
  simp [serveRequest, isFramed, verb, isDispatched, raises]

lemma serveRequest_complete (isFramed : framed frame = some fields) :
    ∃ reply named, serveRequest rt paths frame = some reply ∧ Complete reply named ∧
      (named = .dockerUnavailable → ∃ report d text, target rt paths fields = some (report, d) ∧
        performed report (dryRunOf fields) d = .error (.os text)) := by
  simp only [serveRequest, isFramed, Option.map_some]
  by_cases ping : verbOf rt fields = "ping"
  · rw [if_pos ping]
    refine ⟨_, .pong, rfl, ⟨?_, ⟨true, ?_⟩, fun h => absurd rfl h⟩, fun h => by cases h⟩
    · simp [Dict.get?]
    · simp [Dict.get?]
  rw [if_neg ping]
  cases targetEq : target rt paths fields with
  | none =>
    obtain none' | ⟨typeName, text, raised⟩ := dispatched_of_no_target targetEq
    · rw [none']
      exact ⟨_, .refused, rfl, complete_failure, fun h => by cases h⟩
    · rw [raised]
      exact ⟨_, .serverError, rfl, complete_failure, fun h => by cases h⟩
  | some path =>
    obtain ⟨report, d⟩ := path
    rw [(dispatched_of_target targetEq).2]
    cases performedEq : performed report (dryRunOf fields) d with
    | error fault =>
      obtain ⟨named, complete, isOs⟩ := complete_handled fault
      refine ⟨_, named, rfl, complete, fun h => ?_⟩
      obtain ⟨text, rfl⟩ := isOs h
      exact ⟨report, d, text, rfl, performedEq⟩
    | ok result =>
      obtain ⟨ok, argv, returncode, stdout, stderr, rfl⟩ := performed_eq_ok performedEq
      refine ⟨_, _, rfl, complete_outcome, fun h => ?_⟩
      split_ifs at h

/-- A frame is answered exactly when it is an object or falsy and no `OSError` comes from
elsewhere than the run of the binary. -/
theorem answered_iff (rt : Runtime) (paths : Paths) (frame : Json) :
    Answered rt paths frame ↔ (framed frame).isSome ∧ ¬ StrayOsError rt paths frame := by
  constructor
  · rintro ⟨reply, named, replied, complete, unavailable⟩
    refine ⟨?_, ?_⟩
    · cases framedEq : framed frame with
      | none   => simp [serveConnection, serveRequest, framedEq] at replied
      | some _ => rfl
    · rintro ⟨fields, report, d, text, isFramed, isTarget, stray⟩
      have raises : performed report (dryRunOf fields) d = .error (.os text) := by
        obtain argvEq | ⟨argv, returncode, stdout, stderr, argvEq, live, processEq, echoed, echoEq⟩
          := stray
        · simp [performed, argvEq, bind, Except.bind]
        · simp [performed, argvEq, bind, Except.bind, live, processEq, echoed, echoEq]
      have isHandled : serveConnection rt paths (.ok frame) = some (handled (.os text)) :=
        serveRequest_of_os isFramed isTarget raises
      cases replied.symm.trans isHandled
      obtain ⟨fields', report', d', argv', text', isFramed', isTarget', argvEq', -, processEq'⟩ :=
        unavailable (complete.unique complete_failure)
      cases isFramed.symm.trans isFramed'
      cases isTarget.symm.trans isTarget'
      obtain argvEq | ⟨_, _, _, _, _, _, processEq, _⟩ := stray
      · cases argvEq.symm.trans argvEq'
      · cases processEq.symm.trans processEq'
  · rintro ⟨isFramed, notStray⟩
    obtain ⟨fields, framedEq⟩ := Option.isSome_iff_exists.mp isFramed
    obtain ⟨reply, named, replied, complete, raised⟩ :=
      @serveRequest_complete rt paths frame fields framedEq
    refine ⟨reply, named, replied, complete, fun h => ?_⟩
    obtain ⟨report, d, text, isTarget, raises⟩ := raised h
    obtain argvEq | ⟨argv, argvEq, live, processEq | ⟨_, _, _, processEq, echoed, echoEq⟩⟩ :=
      performed_eq_os raises
    · exact absurd ⟨fields, report, d, text, framedEq, isTarget, .inl argvEq⟩ notStray
    · exact ⟨fields, report, d, argv, text, framedEq, isTarget, argvEq, live, processEq⟩
    · exact absurd ⟨fields, report, d, text, framedEq, isTarget,
        .inr ⟨argv, _, _, _, argvEq, live, processEq, echoed, echoEq⟩⟩ notStray

/-- A frame that is a nonempty list gets no reply. -/
theorem list_frame_unanswered : ¬ ∀ rt paths, Answered rt paths (.arr [.int 1]) := by
  intro h
  let idle : Dispatch := { argv := .ok [], process := .exited 0 "" "", echo := none }
  let rt : Runtime :=
    { loads := fun _ => .error ("JSONDecodeError", ""), repr := fun _ => "", upper := id,
      lower := id }
  obtain ⟨reply, -, replied, -⟩ := h rt ⟨fun _ => idle, fun _ => idle, fun _ => idle⟩
  cases replied

end AgenticDynamics.Fleet.Seam
