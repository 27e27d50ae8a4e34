import AgenticDynamics.Library.JsonKeys

/-!
# The prepared step

The parent writes a step as a document, a sibling container reads it and executes what it read. Both
halves name the settings one by one, each with a rule of its own for what is absent.
-/

namespace AgenticDynamics.Execution

open Python

structure StepRequest where
  phaseName : String
  phaseKind : String
  prompt : String
  model : String
  goal : String
  specName : String
  workdir : String
  language : String := ""
  /-- A text, or null. -/
  backend : Json := .null
  agent : String := ""
  thinkingEffort : String := "high"
  thinkingBudgetTokens : ℤ := 0
  outputTokenLimit : ℤ := 0
  timeout : ℤ := 1800
  silentMode : Bool := false
  enforcePytest : Bool := false
  phaseDef : Dict Json := []
  attempt : ℤ := 1
  forkSessionId : String := ""
  forkCheckpointSha256 : String := ""
  forkDbPath : String := ""
  transcriptPath : String := ""

section Transport

variable (host : Runtime) (sha256 : String → String)

def schema : String := "prepared-step/v1"

/-- The `fork` block of a step. -/
def StepRequest.fork (r : StepRequest) : Dict Json :=
  [("session_id", .str r.forkSessionId), ("checkpoint_sha256", .str r.forkCheckpointSha256),
    ("db_path", .str r.forkDbPath)]

def StepRequest.toPreparedDict (r : StepRequest) (workdir : Option String) : Dict Json :=
  [("schema", .str schema), ("phase_name", .str r.phaseName), ("phase_kind", .str r.phaseKind),
    ("prompt", .str r.prompt), ("prompt_sha256", .str (sha256 r.prompt)), ("model", .str r.model),
    ("backend", r.backend), ("goal", .str r.goal), ("spec_name", .str r.specName),
    ("workdir", .str (Python.orElse workdir r.workdir)), ("language", .str r.language),
    ("thinking_effort", .str r.thinkingEffort),
    ("thinking_budget_tokens", .int r.thinkingBudgetTokens),
    ("output_token_limit", .int r.outputTokenLimit), ("timeout", .int r.timeout),
    ("silent_mode", .bool r.silentMode), ("enforce_pytest", .bool r.enforcePytest),
    ("attempt", .int r.attempt)] ++
  (if r.transcriptPath = "" then [] else [("transcript_path", .str r.transcriptPath)]) ++
  (if r.forkSessionId = "" then [] else [("fork", .obj r.fork)])

/-- `json.loads(json.dumps(doc, sort_keys=True))`. -/
def transported (doc : Dict Json) : Dict Json := Json.sortFields doc

/-- `str(payload.get(key) or fallback)`. -/
def textOr (key fallback : String) (payload : Dict Json) : String :=
  (Json.orElse (Dict.get? key payload) (.str fallback)).text host

/-- `int(payload.get(key) or fallback)`. -/
def intOr (key : String) (fallback : ℤ) (payload : Dict Json) : Except String ℤ :=
  (Json.orElse (Dict.get? key payload) (.int fallback)).toInt host

/-- `bool(payload.get(key, False))`. -/
def flag (key : String) (payload : Dict Json) : Bool :=
  ((Dict.get? key payload).getD (.bool false)).truthy

def short (digest : String) : String := String.ofList (digest.toList.take 12)

def isBlank (prompt : String) : Bool := strip prompt = ""

/-- What a document says under `fork`; null says nothing. -/
def forkBlock (payload : Dict Json) : Option Json :=
  match Dict.get? "fork" payload with
  | none       => none
  | some .null => none
  | some block => some block

/-- The keys that a fork block has to fill. -/
def forkKeys : List String := ["session_id", "checkpoint_sha256", "db_path"]

def missingKeys (block : Dict Json) : List String :=
  forkKeys.filter fun key => textOr host key "" block = ""

def checkFork (payload : Dict Json) : Except String Unit :=
  match forkBlock payload with
  | none              => .ok ()
  | some (.obj block) =>
    let missing := missingKeys host block
    if missing = [] then .ok ()
    else .error ("prepared step fork block is incomplete (missing " ++
      host.repr (.arr (missing.map .str)) ++ ") — refusing to execute; an incomplete fork never " ++
      "degrades to a fresh session")
  | some _            => .error "prepared step fork block is not a mapping"

def checkHash (prompt : String) (payload : Dict Json) : Except String Unit :=
  let carried := textOr host "prompt_sha256" "" payload
  if carried = sha256 prompt then .ok ()
  else .error ("prepared step prompt hash mismatch (" ++
    Python.orElse (some (short carried)) "<empty>" ++ " != " ++ short (sha256 prompt) ++
    "): the instruction was changed in transit — refusing to execute")

/-- `payload.get("schema") == "prepared-step/v1"`. -/
def hasSchema (payload : Dict Json) : Bool :=
  match Dict.get? "schema" payload with
  | some (.str s) => s = schema
  | _             => false

def carriedPrompt (payload : Dict Json) : Except String String :=
  match Dict.get? "prompt" payload with
  | some (.str prompt) => if isBlank prompt then .error "prepared step carries no prompt" else .ok prompt
  | _                  => .error "prepared step carries no prompt"

/-- What stands under a key of the fork block; a block that is no mapping has been refused. -/
def forkText (key : String) (payload : Dict Json) : String :=
  match Json.orElse (Dict.get? "fork" payload) (.obj []) with
  | .obj block => textOr host key "" block
  | _          => ""

/-- The request that a verified document describes. -/
def rebuild (prompt : String) (payload : Dict Json) : Except String StepRequest := do
  let thinkingBudgetTokens ← intOr host "thinking_budget_tokens" 0 payload
  let outputTokenLimit ← intOr host "output_token_limit" 0 payload
  let timeout ← intOr host "timeout" 1800 payload
  let attempt ← intOr host "attempt" 1 payload
  return {
    phaseName := textOr host "phase_name" "" payload
    phaseKind := textOr host "phase_kind" "agent" payload
    prompt
    model := textOr host "model" "" payload
    goal := textOr host "goal" "" payload
    specName := textOr host "spec_name" "" payload
    workdir := textOr host "workdir" "" payload
    language := textOr host "language" "" payload
    backend := (Dict.get? "backend" payload).getD .null
    thinkingEffort := textOr host "thinking_effort" "high" payload
    thinkingBudgetTokens
    outputTokenLimit
    timeout
    silentMode := flag "silent_mode" payload
    enforcePytest := flag "enforce_pytest" payload
    attempt
    forkSessionId := forkText host "session_id" payload
    forkCheckpointSha256 := forkText host "checkpoint_sha256" payload
    forkDbPath := forkText host "db_path" payload
    transcriptPath := textOr host "transcript_path" "" payload }

def fromPreparedDict : Json → Except String StepRequest
  | .obj payload => do
    if ¬ hasSchema payload then throw "not a prepared-step/v1 document"
    let prompt ← carriedPrompt payload
    if ¬ ((Dict.get? "phase_name" payload).getD .null).truthy then
      throw "prepared step carries no phase_name"
    checkFork host payload
    checkHash host sha256 prompt payload
    rebuild host prompt payload
  | _            => throw "not a prepared-step/v1 document"

/-- `load_prepared_step` on what it finds at its path; none stands for a missing file. -/
def loadPreparedStep (path : String) (found : Option String) : Except String (Dict Json) := do
  let some text := found | throw ("prepared step not found: " ++ path)
  match host.loads text with
  | .error (cls, message) =>
    throw (if cls = "JSONDecodeError" then
      "prepared step is not valid JSON: " ++ path ++ ": " ++ message else cls)
  | .ok (.obj payload) =>
    if ¬ hasSchema payload then throw ("not a prepared-step/v1 document: " ++ path)
    let prompt ← (carriedPrompt payload).mapError (· ++ ": " ++ path)
    if ¬ ((Dict.get? "phase_name" payload).getD .null).truthy then
      throw ("prepared step carries no phase_name: " ++ path)
    checkHash host sha256 prompt payload
    return payload
  | .ok _ => throw ("not a prepared-step/v1 document: " ++ path)

/-- What the child executes, as `run_workflow` reads it from the transport file. -/
def preparedChild (path : String) (found : Option String) : Except String StepRequest := do
  let payload ← loadPreparedStep host sha256 path found
  fromPreparedDict host sha256 (.obj payload)

end Transport

/-! ### What survives -/

section RoundTrip

variable {host : Runtime} {sha256 : String → String} {r : StepRequest} {w : String}

def StepRequest.ForkWhole (r : StepRequest) : Prop :=
  (r.forkSessionId = "" ∧ r.forkCheckpointSha256 = "" ∧ r.forkDbPath = "") ∨
    r.forkSessionId ≠ "" ∧ r.forkCheckpointSha256 ≠ "" ∧ r.forkDbPath ≠ ""

/-- The child executes the step of the parent, in its own directory. -/
def StepKept (host : Runtime) (sha256 : String → String) (r : StepRequest) (w : String) : Prop :=
  fromPreparedDict host sha256 (.obj (transported (r.toPreparedDict sha256 (some w)))) =
    .ok { r with workdir := w, phaseDef := [] }

structure Transportable (r : StepRequest) (w : String) : Prop where
  named : r.phaseName ≠ ""
  noAgent : r.agent = ""
  placed : w ≠ "" ∨ r.workdir = ""
  effort : r.thinkingEffort ≠ ""
  timed : r.timeout ≠ 0
  counted : r.attempt ≠ 0
  forked : r.ForkWhole

lemma arrives {key : String} {doc : Dict Json} (value : Json)
    (h : Dict.get? key doc = some value) :
    Dict.get? key (transported doc) = some value.sortKeys := by
  rw [transported, Json.get?_sortFields, h]
  rfl

lemma textOr_arrives {key s : String} {doc : Dict Json} (fallback : String)
    (h : Dict.get? key doc = some (.str s)) :
    textOr host key fallback (transported doc) = if s = "" then fallback else s := by
  by_cases hs : s = "" <;> simp [textOr, arrives _ h, Json.orElse, Json.truthy, Json.text, hs]

lemma intOr_arrives {key : String} {n : ℤ} {doc : Dict Json} (fallback : ℤ)
    (h : Dict.get? key doc = some (.int n)) :
    intOr host key fallback (transported doc) = .ok (if n = 0 then fallback else n) := by
  by_cases hn : n = 0 <;> simp [intOr, arrives _ h, Json.orElse, Json.truthy, Json.toInt, hn]

lemma flag_arrives {key : String} {b : Bool} {doc : Dict Json}
    (h : Dict.get? key doc = some (.bool b)) : flag key (transported doc) = b := by
  simp [flag, arrives _ h, Json.truthy]

lemma textOr_absent {key : String} {doc : Dict Json} (h : Dict.get? key doc = none) :
    textOr host key "" (transported doc) = "" := by
  rw [textOr, transported, Json.get?_sortFields, h]
  rfl

lemma transcript_arrives :
    textOr host "transcript_path" "" (transported (r.toPreparedDict sha256 (some w))) =
      r.transcriptPath := by
  by_cases htranscript : r.transcriptPath = ""
  · rw [textOr_absent, htranscript]
    by_cases hfork : r.forkSessionId = "" <;>
      simp [StepRequest.toPreparedDict, Dict.get?, htranscript, hfork]
  · rw [textOr_arrives (s := r.transcriptPath), if_neg htranscript]
    simp [StepRequest.toPreparedDict, Dict.get?, htranscript]

lemma fork_arrives :
    Dict.get? "fork" (transported (r.toPreparedDict sha256 (some w))) =
      if r.forkSessionId = "" then none else some (.obj (transported r.fork)) := by
  rw [transported, Json.get?_sortFields]
  by_cases hfork : r.forkSessionId = "" <;> by_cases htranscript : r.transcriptPath = "" <;>
    simp [StepRequest.toPreparedDict, Dict.get?, htranscript, hfork, Json.sortKeys, transported]

lemma forkTexts (host : Runtime) (r : StepRequest) :
    textOr host "session_id" "" (transported r.fork) = r.forkSessionId ∧
      textOr host "checkpoint_sha256" "" (transported r.fork) = r.forkCheckpointSha256 ∧
      textOr host "db_path" "" (transported r.fork) = r.forkDbPath := by
  refine ⟨?_, ?_, ?_⟩
  · rw [textOr_arrives (s := r.forkSessionId) "" rfl, ite_eq_right_iff]
    exact Eq.symm
  · rw [textOr_arrives (s := r.forkCheckpointSha256) "" rfl, ite_eq_right_iff]
    exact Eq.symm
  · rw [textOr_arrives (s := r.forkDbPath) "" rfl, ite_eq_right_iff]
    exact Eq.symm

/-- What the child takes a step for once it is accepted. -/
def StepRequest.received (r : StepRequest) (w : String) : StepRequest :=
  { r with
    workdir := if w = "" then r.workdir else w
    agent := ""
    thinkingEffort := if r.thinkingEffort = "" then "high" else r.thinkingEffort
    timeout := if r.timeout = 0 then 1800 else r.timeout
    attempt := if r.attempt = 0 then 1 else r.attempt
    phaseDef := []
    forkCheckpointSha256 := if r.forkSessionId = "" then "" else r.forkCheckpointSha256
    forkDbPath := if r.forkSessionId = "" then "" else r.forkDbPath }

lemma forkText_arrives (key : String) :
    forkText host key (transported (r.toPreparedDict sha256 (some w))) =
      if r.forkSessionId = "" then "" else textOr host key "" (transported r.fork) := by
  rw [forkText, fork_arrives]
  by_cases hfork : r.forkSessionId = ""
  · rw [if_pos hfork, if_pos hfork]
    rfl
  · rw [if_neg hfork, if_neg hfork]
    have htruthy : (Json.obj (transported r.fork)).truthy = true := by
      cases hfields : transported r.fork with
      | nil =>
        have hsession := (forkTexts host r).1
        rw [hfields] at hsession
        exact absurd hsession.symm hfork
      | cons kv fields => rfl
    rw [Json.orElse, if_pos htruthy]

lemma rebuild_arrives (hkind : r.phaseKind ≠ "")
    (hbackend : r.backend = .null ∨ ∃ b, r.backend = .str b) :
    rebuild host r.prompt (transported (r.toPreparedDict sha256 (some w))) =
      .ok (r.received w) := by
  have hsession : (if r.forkSessionId = "" then "" else r.forkSessionId) = r.forkSessionId :=
    ite_eq_right_iff.mpr Eq.symm
  have hback : Dict.get? "backend" (transported (r.toPreparedDict sha256 (some w))) =
      some r.backend := by
    rw [arrives r.backend rfl]
    rcases hbackend with hnull | ⟨b, hstr⟩
    · rw [hnull, Json.sortKeys_null]
    · rw [hstr, Json.sortKeys_str]
  have hempty (s : String) : (if s = "" then "" else s) = s := ite_eq_right_iff.mpr Eq.symm
  have hzero (n : ℤ) : (if n = 0 then 0 else n) = n := ite_eq_right_iff.mpr Eq.symm
  rw [rebuild, intOr_arrives (n := r.thinkingBudgetTokens) 0 rfl,
    intOr_arrives (n := r.outputTokenLimit) 0 rfl, intOr_arrives (n := r.timeout) 1800 rfl,
    intOr_arrives (n := r.attempt) 1 rfl, textOr_arrives (s := r.phaseName) "" rfl,
    textOr_arrives (s := r.phaseKind) "agent" rfl, textOr_arrives (s := r.model) "" rfl,
    textOr_arrives (s := r.goal) "" rfl, textOr_arrives (s := r.specName) "" rfl,
    textOr_arrives (s := Python.orElse (some w) r.workdir) "" rfl,
    textOr_arrives (s := r.language) "" rfl,
    textOr_arrives (s := r.thinkingEffort) "high" rfl, flag_arrives (b := r.silentMode) rfl,
    flag_arrives (b := r.enforcePytest) rfl, hback, forkText_arrives, forkText_arrives,
    forkText_arrives, (forkTexts host r).1, (forkTexts host r).2.1, (forkTexts host r).2.2, transcript_arrives]
  simp only [bind, Except.bind, pure, Except.pure, hempty, hzero, if_neg hkind, Option.getD_some]
  rfl

lemma forkWhole_iff : r.ForkWhole ↔
    (r.forkSessionId = "" → r.forkCheckpointSha256 = "" ∧ r.forkDbPath = "") ∧
      (r.forkSessionId ≠ "" → r.forkCheckpointSha256 ≠ "" ∧ r.forkDbPath ≠ "") := by
  by_cases hsession : r.forkSessionId = "" <;> simp [StepRequest.ForkWhole, hsession]

lemma checkFork_arrives (host : Runtime) (sha256 : String → String) (w : String) :
    checkFork host (transported (r.toPreparedDict sha256 (some w))) = .ok () ↔
      (r.forkSessionId ≠ "" → r.forkCheckpointSha256 ≠ "" ∧ r.forkDbPath ≠ "") := by
  rw [checkFork, forkBlock, fork_arrives]
  by_cases hsession : r.forkSessionId = ""
  · simp [hsession]
  · have hmissing : missingKeys host (transported r.fork) = [] ↔
        r.forkCheckpointSha256 ≠ "" ∧ r.forkDbPath ≠ "" := by
      obtain ⟨hid, hsha, hpath⟩ := forkTexts host r
      simp [missingKeys, forkKeys, List.filter_eq_nil_iff, hid, hsha, hpath, hsession]
    simp only [if_neg hsession, ← hmissing]
    by_cases hwhole : missingKeys host (transported r.fork) = [] <;> simp [hwhole, hsession]

lemma fromPreparedDict_eq_ok {payload : Dict Json} {child : StepRequest} :
    fromPreparedDict host sha256 (.obj payload) = .ok child ↔
      hasSchema payload = true ∧ ∃ prompt, carriedPrompt payload = .ok prompt ∧
        ((Dict.get? "phase_name" payload).getD .null).truthy = true ∧
        checkFork host payload = .ok () ∧ checkHash host sha256 prompt payload = .ok () ∧
        rebuild host prompt payload = .ok child := by
  rw [fromPreparedDict]
  cases hschema : hasSchema payload with
  | false => simp [bind, Except.bind, throw, throwThe, MonadExceptOf.throw]
  | true =>
    cases hprompt : carriedPrompt payload with
    | error e => simp [bind, Except.bind]
    | ok prompt =>
      cases hname : ((Dict.get? "phase_name" payload).getD .null).truthy with
      | false => simp [bind, Except.bind, throw, throwThe, MonadExceptOf.throw]
      | true =>
        cases hfork : checkFork host payload with
        | error e => simp [bind, Except.bind]
        | ok _ =>
          cases hhash : checkHash host sha256 prompt payload with
          | error e => simp [bind, Except.bind, hhash]
          | ok _ => simp [bind, Except.bind, hhash]

lemma fromPreparedDict_arrives (hkind : r.phaseKind ≠ "") (hprompt : isBlank r.prompt = false)
    (hbackend : r.backend = .null ∨ ∃ b, r.backend = .str b) {child : StepRequest} :
    fromPreparedDict host sha256 (.obj (transported (r.toPreparedDict sha256 (some w)))) =
        .ok child ↔
      r.phaseName ≠ "" ∧
        (r.forkSessionId ≠ "" → r.forkCheckpointSha256 ≠ "" ∧ r.forkDbPath ≠ "") ∧
        child = r.received w := by
  have hschema : hasSchema (transported (r.toPreparedDict sha256 (some w))) = true := by
    rw [hasSchema, arrives (.str schema) rfl]
    rfl
  have hcarried : carriedPrompt (transported (r.toPreparedDict sha256 (some w))) =
      .ok r.prompt := by
    have harrived : Dict.get? "prompt" (transported (r.toPreparedDict sha256 (some w))) =
        some (.str r.prompt) := arrives (.str r.prompt) rfl
    simp only [carriedPrompt, harrived, hprompt, Bool.false_eq_true, if_false]
  have hhash : checkHash host sha256 r.prompt (transported (r.toPreparedDict sha256 (some w))) =
      .ok () := by
    have hdigest : (if sha256 r.prompt = "" then "" else sha256 r.prompt) = sha256 r.prompt :=
      ite_eq_right_iff.mpr Eq.symm
    rw [checkHash, textOr_arrives (s := sha256 r.prompt) "" rfl, hdigest]
    exact if_pos rfl
  have hname : ((Dict.get? "phase_name" (transported (r.toPreparedDict sha256 (some w)))).getD
      .null).truthy = decide (r.phaseName ≠ "") := by
    rw [arrives (.str r.phaseName) rfl]
    rfl
  rw [fromPreparedDict_eq_ok, ← checkFork_arrives host sha256 w]
  constructor
  · rintro ⟨-, prompt, hprompt', hnamed, hfork, -, hchild⟩
    rw [hcarried, Except.ok.injEq] at hprompt'
    rw [← hprompt', rebuild_arrives hkind hbackend, Except.ok.injEq] at hchild
    exact ⟨of_decide_eq_true (hname ▸ hnamed), hfork, hchild.symm⟩
  · rintro ⟨hnamed, hfork, rfl⟩
    exact ⟨hschema, r.prompt, hcarried, hname ▸ decide_eq_true hnamed, hfork, hhash,
      rebuild_arrives hkind hbackend⟩

lemma received_eq_iff : r.received w = { r with workdir := w, phaseDef := [] } ↔
    r.agent = "" ∧ (w ≠ "" ∨ r.workdir = "") ∧ r.thinkingEffort ≠ "" ∧ r.timeout ≠ 0 ∧
      r.attempt ≠ 0 ∧
      (r.forkSessionId = "" → r.forkCheckpointSha256 = "" ∧ r.forkDbPath = "") := by
  have hdefault {α : Type} [DecidableEq α] {a b c : α} (hb : b ≠ c) :
      (if a = c then b else a) = a ↔ a ≠ c := by
    by_cases ha : a = c <;> simp [ha, hb]
  have hforked {a b : String} : (if a = "" then "" else b) = b ↔ (a = "" → b = "") := by
    by_cases ha : a = "" <;> simp [ha, eq_comm]
  have hplaced : (if w = "" then r.workdir else w) = w ↔ w ≠ "" ∨ r.workdir = "" := by
    by_cases hw : w = "" <;> simp [hw]
  have hagent : "" = r.agent ↔ r.agent = "" := eq_comm
  simp only [StepRequest.received, StepRequest.mk.injEq, true_and, and_true, hplaced, hagent,
    hforked, hdefault (show "high" ≠ "" by decide), hdefault (show (1800 : ℤ) ≠ 0 by decide),
    hdefault (show (1 : ℤ) ≠ 0 by decide)]
  tauto

/-- The text under `prompt_sha256` is not the digest of the prompt. -/
def HashMismatch (host : Runtime) (sha256 : String → String) (payload : Dict Json) : Prop :=
  ∀ prompt, Dict.get? "prompt" payload = some (.str prompt) →
    textOr host "prompt_sha256" "" payload ≠ sha256 prompt

/-- The fork block is no mapping, or a key of it is absent or empty. -/
def ForkIncomplete (payload : Dict Json) : Prop :=
  ∃ block, forkBlock payload = some block ∧ ∀ fields, block = .obj fields →
    ∃ key ∈ forkKeys, ∀ value, Dict.get? key fields = some value → value.truthy = false

lemma prompt_of_carried {payload : Dict Json} {prompt : String}
    (h : carriedPrompt payload = .ok prompt) :
    Dict.get? "prompt" payload = some (.str prompt) ∧ isBlank prompt = false := by
  rw [carriedPrompt] at h
  split at h
  · split_ifs at h with hblank
    cases h
    exact ⟨by assumption, by simpa using hblank⟩
  · cases h

lemma refuses_mismatch {payload : Dict Json} (h : HashMismatch host sha256 payload)
    {prompt : String} (hprompt : carriedPrompt payload = .ok prompt) :
    checkHash host sha256 prompt payload ≠ .ok () := by
  rw [checkHash, if_neg (h prompt (prompt_of_carried hprompt).1)]
  exact fun hok => by cases hok

lemma refuses_incomplete {payload : Dict Json} (h : ForkIncomplete payload) :
    checkFork host payload ≠ .ok () := by
  obtain ⟨block, hblock, hincomplete⟩ := h
  rw [checkFork, hblock]
  cases block with
  | obj fields =>
    obtain ⟨key, hkey, hfalsy⟩ := hincomplete fields rfl
    have hblank : textOr host key "" fields = "" := by
      rw [textOr]
      cases hget : Dict.get? key fields with
      | none => rfl
      | some value =>
        rw [Json.orElse, if_neg (by simp [hfalsy value hget])]
        rfl
    have hmissing : key ∈ missingKeys host fields :=
      List.mem_filter.mpr ⟨hkey, decide_eq_true hblank⟩
    simp only [if_neg (List.ne_nil_of_mem hmissing)]
    exact fun hok => by cases hok
  | _ => exact fun hok => by cases hok

/-- The child executes the step of the parent only when it runs as no particular agent and none of
its settings is one that the two halves treat as absent: the role is never written, and an empty
effort, a zero timeout or attempt and an empty directory turn into the default of the reader. What
was changed on the way, and a fork that is not whole, is refused. -/
theorem prepared_step_kept_iff (hkind : r.phaseKind = "agent") (hprompt : isBlank r.prompt = false)
    (hbackend : r.backend = .null ∨ ∃ b, r.backend = .str b) :
    (StepKept host sha256 r w ↔ Transportable r w) ∧
      ∀ payload, HashMismatch host sha256 payload ∨ ForkIncomplete payload →
        ∃ e, fromPreparedDict host sha256 (.obj payload) = .error e := by
  refine ⟨?_, ?_⟩
  · have hagent : r.phaseKind ≠ "" := by rw [hkind]; decide
    rw [StepKept, fromPreparedDict_arrives hagent hprompt hbackend, eq_comm, received_eq_iff]
    constructor
    · rintro ⟨hnamed, hwhole, hrole, hplaced, heffort, htimed, hcounted, hplain⟩
      exact ⟨hnamed, hrole, hplaced, heffort, htimed, hcounted, forkWhole_iff.mpr ⟨hplain, hwhole⟩⟩
    · intro h
      obtain ⟨hplain, hwhole⟩ := forkWhole_iff.mp h.forked
      exact ⟨h.named, hwhole, h.noAgent, h.placed, h.effort, h.timed, h.counted, hplain⟩
  · intro payload hbad
    cases hread : fromPreparedDict host sha256 (.obj payload) with
    | error e => exact ⟨e, rfl⟩
    | ok child =>
      obtain ⟨-, prompt, hcarried, -, hfork, hhash, -⟩ := fromPreparedDict_eq_ok.mp hread
      rcases hbad with hmismatch | hincomplete
      · exact absurd hhash (refuses_mismatch hmismatch hcarried)
      · exact absurd hfork (refuses_incomplete hincomplete)

lemma found_of_loaded {path : String} {found : Option String} {payload : Dict Json}
    (h : loadPreparedStep host sha256 path found = .ok payload) :
    ∃ text, found = some text ∧ host.loads text = .ok (.obj payload) := by
  cases found with
  | none => cases h
  | some text =>
    refine ⟨text, rfl, ?_⟩
    simp only [loadPreparedStep] at h
    cases hloads : host.loads text with
    | error e =>
      rw [hloads] at h
      cases h
    | ok v =>
      cases v with
      | obj fields =>
        simp only [hloads, bind, Except.bind, throw, throwThe, MonadExceptOf.throw] at h
        repeat' split at h
        all_goals cases h
        rfl
      | _ =>
        rw [hloads] at h
        cases h

lemma whole_of_rebuilt {payload : Dict Json} {prompt : String}
    (hfork : checkFork host payload = .ok ()) (hr : rebuild host prompt payload = .ok r) :
    r.prompt = prompt ∧ r.ForkWhole := by
  simp only [rebuild, bind_eq_ok] at hr
  obtain ⟨_, -, _, -, _, -, _, -, hr⟩ := hr
  cases hr
  refine ⟨rfl, ?_⟩
  rw [checkFork, forkBlock] at hfork
  rw [StepRequest.ForkWhole]
  simp only [forkText]
  cases hblock : Dict.get? "fork" payload with
  | none => exact .inl ⟨rfl, rfl, rfl⟩
  | some v =>
    rw [hblock] at hfork
    cases v with
    | null => exact .inl ⟨rfl, rfl, rfl⟩
    | obj block =>
      have hfilled : missingKeys host block = [] := by
        by_contra hmissing
        simp only [if_neg hmissing] at hfork
        cases hfork
      have hkeys : ∀ key ∈ forkKeys, textOr host key "" block ≠ "" := by
        simpa [missingKeys, List.filter_eq_nil_iff] using hfilled
      cases block with
      | nil => exact absurd rfl (hkeys "session_id" (by decide))
      | cons kv block =>
        exact .inr ⟨hkeys _ (by decide), hkeys _ (by decide), hkeys _ (by decide)⟩
    | _ => cases hfork

/-- The child executes just what `from_prepared_dict` accepts of the file: its own prompt, under the
digest that the file carries, and a fork that is whole. -/
theorem preparedChild_executes {path : String} {found : Option String} :
    preparedChild host sha256 path found = .ok r ↔
      ∃ text payload, found = some text ∧ host.loads text = .ok (.obj payload) ∧
        fromPreparedDict host sha256 (.obj payload) = .ok r ∧ ¬ HashMismatch host sha256 payload ∧
        Dict.get? "prompt" payload = some (.str r.prompt) ∧ isBlank r.prompt = false ∧
        r.ForkWhole := by
  constructor
  · intro h
    obtain ⟨payload, hload, hr⟩ := bind_eq_ok.mp h
    obtain ⟨text, hfound, hloads⟩ := found_of_loaded hload
    obtain ⟨-, prompt, hprompt, -, hfork, hhash, hbuilt⟩ := fromPreparedDict_eq_ok.mp hr
    obtain ⟨rfl, hwhole⟩ := whole_of_rebuilt hfork hbuilt
    obtain ⟨hcarried, hfilled⟩ := prompt_of_carried hprompt
    exact ⟨text, payload, hfound, hloads, hr, fun hmismatch =>
      refuses_mismatch hmismatch hprompt hhash, hcarried, hfilled, hwhole⟩
  · rintro ⟨text, payload, rfl, hloads, hr, -⟩
    obtain ⟨hschema, prompt, hprompt, hname, -, hhash, -⟩ := fromPreparedDict_eq_ok.mp hr
    simp [preparedChild, loadPreparedStep, hloads, hschema, hprompt, hname, hhash, hr, bind,
      Except.bind, pure, Except.pure, Except.mapError]

/-- Built-ins of texts that need no decoder. -/
def stepHost : Runtime where
  loads _ := .error ("JSONDecodeError", "")
  repr _ := ""
  upper s := s
  lower s := s

def reviewStep : StepRequest where
  phaseName := "review"
  phaseKind := "agent"
  prompt := "Read the change."
  model := "m"
  goal := "g"
  specName := "s"
  workdir := "/runs/r1/repo"

theorem prepared_step_kept_review : StepKept stepHost id reviewStep "/repo" :=
  (@prepared_step_kept_iff stepHost id reviewStep "/repo" rfl
    (by decide +kernel) (.inl rfl)).1.mpr
    ⟨by decide, rfl, .inl (by decide), by decide, by decide, by decide, .inl ⟨rfl, rfl, rfl⟩⟩

/-- A step of the reviewer arrives as one of an ordinary worker. -/
theorem prepared_step_drops_agent : ∃ r : StepRequest, r.phaseKind = "agent" ∧
    isBlank r.prompt = false ∧ r.backend = .null ∧ r.agent = "reviewer" ∧
      ∃ child, fromPreparedDict stepHost id
          (.obj (transported (r.toPreparedDict id (some "/repo")))) = .ok child ∧
        child.agent = "" ∧ ¬ StepKept stepHost id r "/repo" := by
  have hchild : fromPreparedDict stepHost id (.obj (transported
      (StepRequest.toPreparedDict id { reviewStep with agent := "reviewer" } (some "/repo")))) =
      .ok (StepRequest.received { reviewStep with agent := "reviewer" } "/repo") :=
    (fromPreparedDict_arrives (by decide) (by decide +kernel) (.inl rfl)).mpr
      ⟨by decide, fun hfork => absurd rfl hfork, rfl⟩
  refine ⟨{ reviewStep with agent := "reviewer" }, rfl, by decide +kernel, rfl, rfl, _, hchild, rfl,
    fun hkept => ?_⟩
  have hsame := congrArg StepRequest.agent (Except.ok.inj (hchild.symm.trans hkept))
  exact absurd hsame (by decide)

end RoundTrip

end AgenticDynamics.Execution
