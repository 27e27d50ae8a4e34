import AgenticDynamics.Library.JsonText
import AgenticDynamics.Fleet.FleetRuns

/-!
# Request keys

A submit with a key is one script: it finds the key claimed, or it claims the key, pushes the command
and writes the record of the job. A caller that finds the key claimed compares the fingerprint of its
own request with the one that was stored.
-/

namespace AgenticDynamics.Fleet

open Python Json

/-! ### Requests -/

/-- The arguments of `_send_submit_command`, and what it mints. -/
structure Submission where
  spec : String
  goal : String
  model : String
  workdir : String
  image : Option String := none
  specSha256 : Option String := none
  resume : Bool := false
  parentRunId : Option String := none
  admission : Option (Dict Json) := none
  execution : Option (Dict Json) := none
  aio : Option (Dict Json) := none
  requestKey : Option String := none
  retrySafe : Bool := false
  taskIdentity : Option String := none
  jobId : String
  ts : Json := .null
  nonce : String := ""
  minted : jobId ≠ "" := by decide

/-- A digest in hexadecimal, which is never the empty text. -/
structure Digest where
  hex : String → String
  filled : ∀ text, hex text ≠ ""

/-- `json.dumps`, with its text of floats where the keys are sorted, and the text that Lua gives a
value that is no string. -/
structure Sender where
  host : Runtime
  floats : FloatText
  sha256 : Digest
  dumps : Json → String
  luaText : Json → String

section Send

variable (sender : Sender)

/-- What the two digests of a request have in common. -/
def Submission.inputs (c : Submission) : Dict Json :=
  [("spec", .str c.spec), ("goal", .str c.goal), ("model", .str c.model),
    ("image", .str (c.image.getD "")), ("spec_sha256", .str (c.specSha256.getD "")),
    ("resume", .bool c.resume), ("parent_run_id", .str (c.parentRunId.getD "")),
    ("admission", .obj (c.admission.getD [])), ("execution", .obj (c.execution.getD []))]

/-- The canonical text behind the fingerprint. -/
def Submission.canonical (c : Submission) : String :=
  Json.dumps sender.floats (.obj (("workdir", .str c.workdir) :: c.inputs))

/-- `request_fingerprint`. -/
def Submission.fingerprint (c : Submission) : String := sender.sha256.hex (c.canonical sender)

/-- `_workspace_identity_digest`. -/
def Submission.scopeDigest (c : Submission) : String :=
  sender.sha256.hex (Json.dumps sender.floats (.obj c.inputs))

def unitSeparator : String := String.singleton (Char.ofNat 0x1f)

/-- `_derive_request_key`. -/
def Submission.key (c : Submission) : Option String :=
  let explicit := strip (c.requestKey.getD "")
  if explicit ≠ "" then some explicit
  else if ¬ c.retrySafe then none
  else
    let scope := strip (c.taskIdentity.getD "")
    let basis := if scope = "" then c.scopeDigest sender
      else scope ++ unitSeparator ++ c.scopeDigest sender
    some ("auto:" ++ String.ofList ((sender.sha256.hex basis).toList.take 32))

/-- A field that is left out where it is empty. -/
def optionalText (name : String) (value : Option String) : Dict Json :=
  match value with
  | some s => if s = "" then [] else [(name, .str s)]
  | none   => []

def optionalDict (name : String) (value : Option (Dict Json)) : Dict Json :=
  match value with
  | some d => if d.isEmpty then [] else [(name, .obj d)]
  | none   => []

def Submission.command (c : Submission) : Dict Json :=
  let task := strip (c.taskIdentity.getD "")
  [("action", .str "submit"), ("job_id", .str c.jobId), ("spec", .str c.spec),
    ("goal", .str c.goal), ("model", .str c.model), ("workdir", .str c.workdir), ("ts", c.ts),
    ("nonce", .str c.nonce)] ++ optionalText "image" c.image ++
  optionalText "spec_sha256" c.specSha256 ++ (if c.resume then [("resume", .bool true)] else []) ++
  optionalText "parent_run_id" c.parentRunId ++ optionalDict "admission" c.admission ++
  optionalDict "execution" c.execution ++
  (if (optionalDict "aio" c.aio).isEmpty then []
    else ("actor", .str "aio") :: optionalDict "aio" c.aio) ++
  optionalText "task_identity" (some task) ++ optionalText "request_key" (c.key sender)

/-- The identity that is stored under the key. -/
def Submission.entry (c : Submission) : Dict Json :=
  [("job_id", .str c.jobId), ("fingerprint", .str (c.fingerprint sender)),
    ("workdir", .str c.workdir)]

/-! ### The script -/

/-- The keys of the fleet, and `fleet:requests`; none stands for a text without a document. -/
structure SubmitStore extends FleetStore where
  requests : Dict JobRecord := []

def SubmitStore.push (raw : String) (s : SubmitStore) : SubmitStore :=
  { s with toFleetStore := s.toFleetStore.push raw }

def SubmitStore.setJob (jobId : String) (record : Dict Json) (s : SubmitStore) : SubmitStore :=
  { s with toFleetStore := s.toFleetStore.setJob jobId record }

/-- What `_SUBMIT_LUA` returns: the new job, or the stored entry and the record of its job. -/
inductive ScriptResult
  | claimed
  | existing (entry : JobRecord) (record : Option JobRecord)

def luaJob (entry : JobRecord) : Option String :=
  match entry with
  | some (.obj fields) =>
    match Dict.get? "job_id" fields with
    | some (.str jobId)    => some jobId
    | some (.bool false)   => none
    | some value           => some (sender.luaText value)
    | none                 => none
  | _                  => none

/-- `_SUBMIT_LUA`. -/
def submitScript (key : String) (c : Submission) (s : SubmitStore) : ScriptResult × SubmitStore :=
  match Dict.get? key s.requests with
  | some entry =>
    (.existing entry ((luaJob sender entry).bind fun jobId => Dict.get? jobId s.jobs), s)
  | none =>
    let claimed := { s with requests := Dict.set key (some (.obj (c.entry sender))) s.requests }
    (.claimed, (claimed.push (sender.dumps (.obj (c.command sender)))).setJob c.jobId
      (launchRecord c.jobId (c.command sender)))

/-! ### The caller -/

inductive SubmitError
  | unresolved (message : String)
  | conflict (message : String)

/-- `_parse_request_entry`; the message leaves out the decoder's own text. -/
def parseRequestEntry (entry : JobRecord) (key : String) : Except SubmitError (Dict Json) :=
  let quoted := "request key " ++ sender.host.repr (.str key)
  let advice := "cannot verify this retry; resolve it from the board or mint a new key"
  let missing := quoted ++ " carries no stored fingerprint/workspace (missing evidence) — " ++ advice
  match entry with
  | none               => .error (.unresolved
      (quoted ++ " has an unreadable stored identity — " ++ advice))
  | some (.obj fields) =>
    if ["job_id", "fingerprint", "workdir"].all fun name =>
        ((Dict.get? name fields).getD .null).truthy then .ok fields
    else .error (.unresolved missing)
  | some _             => .error (.unresolved missing)

/-- The record that a reconciled caller gets. -/
def reconciled (key : String) (existing : Dict Json) (record : Option JobRecord) : Dict Json :=
  let jobId := (Dict.get? "job_id" existing).getD .null
  let found : Dict Json :=
    match record with
    | some (some (.obj (kv :: fields))) => kv :: fields
    | _ => [("job_id", jobId), ("status", .str "unknown"), ("board_record", .str "missing")]
  Dict.set "reconciled" (.bool true) (Dict.set "request_key" (.str key)
    (Dict.set "job_id" jobId found))

def isDigest (text : String) : Json → Bool
  | .str s => s = text
  | _      => false

/-- What a caller with a key makes of the answer of the script. -/
def answer (key : String) (c : Submission) : ScriptResult → Except SubmitError (Dict Json)
  | .claimed               => .ok (c.command sender)
  | .existing entry record => do
    let existing ← parseRequestEntry sender entry key
    if isDigest (c.fingerprint sender) ((Dict.get? "fingerprint" existing).getD .null) then
      return reconciled key existing record
    throw (.conflict ("request key " ++ sender.host.repr (.str key) ++ " already maps to job " ++
      ((Dict.get? "job_id" existing).getD .null).text sender.host ++ " for a DIFFERENT request " ++
      "(the execution-relevant fingerprint changed: spec, digest, goal, model, worktree, " ++
      "continuation, admission, or execution settings) — a request key identifies ONE " ++
      "submission; a changed request needs a new key"))

/-- `_send_submit_command`; without a key, up to its push. -/
def sendSubmit (c : Submission) (s : SubmitStore) :
    Except SubmitError (Dict Json) × SubmitStore :=
  match c.key sender with
  | some key => ((answer sender key c (submitScript sender key c s).1),
      (submitScript sender key c s).2)
  | none     => (.ok (c.command sender), s.push (sender.dumps (.obj (c.command sender))))

end Send

/-! ### Interleavings -/

/-- The calls of Redis that are no script of a keyed submit: those of the consumer and of the
sweeps, and the later write of a submit without a key. -/
inductive OtherCall
  | claim
  | release (raw : String)
  | requeue (raw : String)
  | bury (command : Json) (reason : String)
  | setJob (jobId : String) (record : Dict Json)

def OtherCall.apply (o : OtherCall) (s : FleetStore) : FleetStore :=
  match o with
  | claim               => ((claimCommand s).map Prod.snd).getD s
  | release raw         => releaseCommand raw s
  | requeue raw         => requeueClaimed raw s
  | bury command reason => s.recordDead command reason
  | setJob jobId record => s.setJob jobId record

inductive KeyEvent
  | submit (c : Submission)
  | other (o : OtherCall)

def KeyEvent.next (sender : Sender) (s : SubmitStore) : KeyEvent → SubmitStore
  | submit c => (sendSubmit sender c s).2
  | other o  => { s with toFleetStore := o.apply s.toFleetStore }

/-- The submits on a key that push a command, in a run. -/
def pushers (sender : Sender) (key : String) : SubmitStore → List KeyEvent → List Submission
  | _, []                  => []
  | s, .submit c :: events =>
    (if c.key sender = some key ∧ (sendSubmit sender c s).2.commands ≠ s.commands then [c] else []) ++
      pushers sender key ((KeyEvent.submit c).next sender s) events
  | s, .other o :: events  => pushers sender key ((KeyEvent.other o).next sender s) events

section Keys

variable {sender : Sender} {key : String} {s : SubmitStore} {c first : Submission}

/-- The requests agree in all that the execution depends on. -/
structure SameInputs (c c' : Submission) : Prop where
  spec : c.spec = c'.spec
  goal : c.goal = c'.goal
  model : c.model = c'.model
  workdir : c.workdir = c'.workdir
  image : c.image.getD "" = c'.image.getD ""
  specSha256 : c.specSha256.getD "" = c'.specSha256.getD ""
  resume : c.resume = c'.resume
  parentRunId : c.parentRunId.getD "" = c'.parentRunId.getD ""
  admission : Same (.obj (c.admission.getD [])) (.obj (c'.admission.getD []))
  execution : Same (.obj (c.execution.getD [])) (.obj (c'.execution.getD []))

lemma canonical_eq_iff {c' : Submission} :
    c.canonical sender = c'.canonical sender ↔ SameInputs c c' := by
  rw [Submission.canonical, Submission.canonical, dumps_eq_iff, Same]
  simp only [Submission.inputs, sortKeys, sortFields, insertField, String.reduceLE, if_true,
    if_false, obj.injEq, List.cons.injEq, Prod.mk.injEq, true_and, and_true, str.injEq, bool.injEq]
  constructor
  · rintro ⟨hadmission, hexecution, hgoal, himage, hmodel, hparent, hresume, hspec, hsha, hworkdir⟩
    exact ⟨hspec, hgoal, hmodel, hworkdir, himage, hsha, hresume, hparent,
      congrArg Json.obj hadmission, congrArg Json.obj hexecution⟩
  · intro h
    exact ⟨Json.obj.inj h.admission, Json.obj.inj h.execution, h.goal, h.image, h.model,
      h.parentRunId, h.resume, h.spec, h.specSha256, h.workdir⟩

/-! ### Who holds a key -/

lemma requests_sendSubmit : Dict.get? key (sendSubmit sender c s).2.requests =
    if c.key sender = some key ∧ Dict.get? key s.requests = none
    then some (some (.obj (c.entry sender))) else Dict.get? key s.requests := by
  rw [sendSubmit]
  cases hkey : c.key sender with
  | none => simp [SubmitStore.push]
  | some key' =>
    cases hheld : Dict.get? key' s.requests with
    | some entry =>
      simp only [submitScript, hheld]
      have hkept : ¬ (some key' = some key ∧ Dict.get? key s.requests = none) := by
        rintro ⟨hsame, hnone⟩
        rw [Option.some.injEq] at hsame
        rw [hsame, hnone] at hheld
        cases hheld
      rw [if_neg hkept]
    | none =>
      simp only [submitScript, hheld, SubmitStore.setJob, SubmitStore.push, Dict.get?_set,
        Option.some.injEq]
      by_cases hsame : key' = key
      · subst hsame
        rw [if_pos rfl, if_pos ⟨rfl, hheld⟩]
      · rw [if_neg hsame, if_neg fun h => hsame h.1]

lemma requests_next (e : KeyEvent) : Dict.get? key (e.next sender s).requests =
    match e with
    | .submit c => if c.key sender = some key ∧ Dict.get? key s.requests = none
        then some (some (.obj (c.entry sender))) else Dict.get? key s.requests
    | .other _  => Dict.get? key s.requests := by
  cases e with
  | submit c => exact requests_sendSubmit
  | other o => rfl

lemma requests_free (events : List KeyEvent) (hfree : Dict.get? key s.requests = none)
    (hnobody : ∀ c, .submit c ∈ events → c.key sender ≠ some key) :
    Dict.get? key (events.foldl (KeyEvent.next sender) s).requests = none := by
  induction events generalizing s with
  | nil => exact hfree
  | cons e events ih =>
    refine ih ?_ fun c hc => hnobody c (List.mem_cons_of_mem e hc)
    rw [requests_next]
    cases e with
    | submit c => exact (if_neg fun h => hnobody c List.mem_cons_self h.1).trans hfree
    | other o => exact hfree

lemma requests_kept (sender : Sender) (events : List KeyEvent) {entry : JobRecord}
    (hheld : Dict.get? key s.requests = some entry) :
    Dict.get? key (events.foldl (KeyEvent.next sender) s).requests = some entry := by
  induction events generalizing s with
  | nil => exact hheld
  | cons e events ih =>
    refine ih ?_
    rw [requests_next]
    cases e with
    | submit c =>
      refine (if_neg fun h => ?_).trans hheld
      rw [hheld] at h
      cases h.2
    | other o => exact hheld

/-! ### The winner and the others -/

lemma sendSubmit_first (hkey : first.key sender = some key)
    (hfree : Dict.get? key s.requests = none) :
    (sendSubmit sender first s).1 = .ok (first.command sender) ∧
      (sendSubmit sender first s).2.commands =
        sender.dumps (.obj (first.command sender)) :: s.commands := by
  rw [sendSubmit, hkey]
  simp only [submitScript, hfree]
  exact ⟨rfl, rfl⟩

lemma parse_entry (hworkdir : first.workdir ≠ "") :
    parseRequestEntry sender (some (.obj (first.entry sender))) key =
      .ok (first.entry sender) := by
  have hfilled : (["job_id", "fingerprint", "workdir"].all fun name =>
      ((Dict.get? name (first.entry sender)).getD .null).truthy) = true := by
    have hdigest := sender.sha256.filled (first.canonical sender)
    simp [Submission.entry, Dict.get?, Json.truthy, first.minted, hworkdir, Submission.fingerprint,
      hdigest]
  rw [parseRequestEntry]
  exact if_pos hfilled

lemma reconciled_jobId (record : Option JobRecord) :
    Dict.get? "job_id" (reconciled key (first.entry sender) record) = some (.str first.jobId) := by
  unfold reconciled
  rw [Dict.get?_set, if_neg (by decide), Dict.get?_set, if_neg (by decide), Dict.get?_set,
    if_pos rfl]
  rfl

lemma sendSubmit_later (hkey : c.key sender = some key) (hworkdir : first.workdir ≠ "")
    (hheld : Dict.get? key s.requests = some (some (.obj (first.entry sender)))) :
    (sendSubmit sender c s).2 = s ∧
      (first.fingerprint sender = c.fingerprint sender →
        ∃ record, (sendSubmit sender c s).1 = .ok record ∧
          Dict.get? "job_id" record = some (.str first.jobId)) ∧
      (first.fingerprint sender ≠ c.fingerprint sender →
        ∃ message, (sendSubmit sender c s).1 = .error (.conflict message)) := by
  have hstored : (Dict.get? "fingerprint" (first.entry sender)).getD .null =
      .str (first.fingerprint sender) := rfl
  rw [sendSubmit, hkey]
  simp only [submitScript, hheld, answer, parse_entry hworkdir, bind, Except.bind, hstored, isDigest]
  refine ⟨trivial, fun hsame => ?_, fun hother => ?_⟩
  · rw [if_pos (decide_eq_true hsame)]
    exact ⟨_, rfl, reconciled_jobId _⟩
  · rw [if_neg (by simpa using hother)]
    exact ⟨_, rfl⟩

lemma pushers_held {events : List KeyEvent} {entry : JobRecord}
    (hheld : Dict.get? key s.requests = some entry) : pushers sender key s events = [] := by
  induction events generalizing s with
  | nil => rfl
  | cons e events ih =>
    have hnext : Dict.get? key (e.next sender s).requests = some entry :=
      requests_kept sender [e] hheld
    cases e with
    | submit c =>
      have hidle : ¬ (c.key sender = some key ∧
          (sendSubmit sender c s).2.commands ≠ s.commands) := by
        rintro ⟨hkey, hpushed⟩
        rw [sendSubmit, hkey] at hpushed
        simp only [submitScript, hheld] at hpushed
        exact hpushed rfl
      rw [pushers, if_neg hidle, ih hnext]
      rfl
    | other o =>
      rw [pushers, ih hnext]

lemma pushers_first {before after : List KeyEvent} (hfree : Dict.get? key s.requests = none)
    (hnobody : ∀ c, .submit c ∈ before → c.key sender ≠ some key)
    (hfirst : first.key sender = some key) :
    pushers sender key s (before ++ .submit first :: after) = [first] := by
  induction before generalizing s with
  | nil =>
    have hpush := (sendSubmit_first hfirst hfree).2
    have hheld : Dict.get? key ((KeyEvent.submit first).next sender s).requests =
        some (some (.obj (first.entry sender))) := by
      rw [requests_next]
      exact if_pos ⟨hfirst, hfree⟩
    rw [List.nil_append, pushers, if_pos ⟨hfirst, by rw [hpush]; exact List.cons_ne_self _ _⟩,
      pushers_held hheld]
    rfl
  | cons e before ih =>
    have hnext : Dict.get? key (e.next sender s).requests = none :=
      requests_free [e] hfree fun c hc =>
        hnobody c (List.mem_cons.mpr (.inl (List.mem_singleton.mp hc)))
    have hrest := ih hnext fun c hc => hnobody c (List.mem_cons_of_mem e hc)
    cases e with
    | submit c =>
      rw [List.cons_append, pushers, if_neg fun h => hnobody c List.mem_cons_self h.1, hrest]
      rfl
    | other o =>
      rw [List.cons_append, pushers, hrest]

/-- One command is pushed for a key, by its first caller; the others change nothing, and get the
first job when they ask for the same execution and are refused when they do not, provided that the
first caller named a workspace. -/
theorem request_key_one_job {before after : List KeyEvent}
    (hfree : Dict.get? key s.requests = none)
    (hnobody : ∀ c, .submit c ∈ before → c.key sender ≠ some key)
    (hfirst : first.key sender = some key) (hworkdir : first.workdir ≠ "")
    (hcollision : ∀ c, .submit c ∈ after → c.key sender = some key →
      first.fingerprint sender = c.fingerprint sender → first.canonical sender = c.canonical sender) :
    pushers sender key s (before ++ .submit first :: after) = [first] ∧
      (sendSubmit sender first (before.foldl (KeyEvent.next sender) s)).1 =
        .ok (first.command sender) ∧
      ∀ mid c rest, after = mid ++ .submit c :: rest → c.key sender = some key →
        let t := (before ++ .submit first :: mid).foldl (KeyEvent.next sender) s
        (sendSubmit sender c t).2 = t ∧
          (SameInputs first c → ∃ record, (sendSubmit sender c t).1 = .ok record ∧
            Dict.get? "job_id" record = some (.str first.jobId)) ∧
          (¬ SameInputs first c →
            ∃ message, (sendSubmit sender c t).1 = .error (.conflict message)) := by
  have hreached := requests_free before hfree hnobody
  refine ⟨pushers_first hfree hnobody hfirst, (sendSubmit_first hfirst hreached).1, ?_⟩
  intro mid c rest hafter hkey t
  have hheld : Dict.get? key t.requests = some (some (.obj (first.entry sender))) := by
    have hclaimed : Dict.get? key ((KeyEvent.submit first).next sender
        (before.foldl (KeyEvent.next sender) s)).requests =
        some (some (.obj (first.entry sender))) := by
      rw [requests_next]
      exact if_pos ⟨hfirst, hreached⟩
    have hkept := requests_kept sender mid hclaimed
    rwa [← List.foldl_cons, ← List.foldl_append] at hkept
  obtain ⟨hidle, hsame, hother⟩ := sendSubmit_later hkey hworkdir hheld
  have hmem : KeyEvent.submit c ∈ after := by
    rw [hafter]
    exact List.mem_append_right mid List.mem_cons_self
  refine ⟨hidle, fun hinputs => hsame ?_, fun hinputs => hother fun hdigest => ?_⟩
  · exact congrArg sender.sha256.hex (canonical_eq_iff.mpr hinputs)
  · exact hinputs (canonical_eq_iff.mp (hcollision c hmem hkey hdigest))

/-- A sender whose digests are the texts themselves. -/
def plainSender : Sender where
  host := restartHost
  floats := .fraction
  sha256 :=
    { hex := fun text => "#" ++ text
      filled := fun text h => by
        have hlist := congrArg String.toList h
        simp [String.toList_append] at hlist }
  dumps _ := "command"
  luaText _ := ""

def keyedRequest (jobId goal workdir : String) (minted : jobId ≠ "") : Submission where
  spec := "a.yaml"
  goal
  model := "m"
  workdir
  requestKey := some "k"
  jobId
  minted

lemma keyedRequest_key (jobId goal workdir : String) (minted : jobId ≠ "") :
    (keyedRequest jobId goal workdir minted).key plainSender = some "k" := by
  have hstrip : strip "k" = "k" := by decide +kernel
  simp only [Submission.key, keyedRequest, Option.getD_some, hstrip]
  exact if_pos (by decide)

/-- A retry, and another request under the same key. -/
theorem request_key_one_job_retried :
    pushers plainSender "k" {}
      [.submit (keyedRequest "j1" "g" "/w" (by decide)),
        .submit (keyedRequest "j2" "g" "/w" (by decide)),
        .submit (keyedRequest "j3" "other" "/w" (by decide))] =
      [keyedRequest "j1" "g" "/w" (by decide)] :=
  (@request_key_one_job _ _ _ _ [] _ rfl (fun _ hc => absurd hc List.not_mem_nil)
    (keyedRequest_key _ _ _ _) (by decide) fun _ _ _ hsame => String.append_right_inj "#" |>.mp
      hsame).1

/-- A retry of a request without a workspace is neither given the first job nor told of a
conflict. -/
theorem retry_without_workspace_unresolved : ∃ first second,
    first.key plainSender = some "k" ∧ second.key plainSender = some "k" ∧
      SameInputs first second ∧ first.workdir = "" ∧
      ∃ message, (sendSubmit plainSender second (sendSubmit plainSender first {}).2).1 =
        .error (.unresolved message) := by
  refine ⟨keyedRequest "j1" "g" "" (by decide), keyedRequest "j2" "g" "" (by decide),
    keyedRequest_key _ _ _ _, keyedRequest_key _ _ _ _,
    ⟨rfl, rfl, rfl, rfl, rfl, rfl, rfl, rfl, rfl, rfl⟩, rfl, ?_⟩
  have hheld : Dict.get? "k" (sendSubmit plainSender (keyedRequest "j1" "g" "" (by decide))
      {}).2.requests =
        some (some (.obj ((keyedRequest "j1" "g" "" (by decide)).entry plainSender))) := by
    rw [requests_sendSubmit]
    exact if_pos ⟨keyedRequest_key _ _ _ _, rfl⟩
  have hblank : (["job_id", "fingerprint", "workdir"].all fun name =>
      ((Dict.get? name ((keyedRequest "j1" "g" "" (by decide)).entry plainSender)).getD
        .null).truthy) = false := by
    simp [Submission.entry, keyedRequest, Dict.get?, Json.truthy]
  rw [sendSubmit, keyedRequest_key]
  simp only [submitScript, hheld, answer, parseRequestEntry, hblank]
  exact ⟨_, rfl⟩

end Keys

end AgenticDynamics.Fleet
