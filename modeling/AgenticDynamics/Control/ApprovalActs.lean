import AgenticDynamics.Control.Approvals

/-!
# Approval acts

One attempt to approve a stopped run: the checks, the intent in the command journal, the signed
artifact and its commit, the approval row, and the receipt. The journal row is found by a key that
names the run and the candidate and leaves the gate out.
-/

namespace AgenticDynamics.Control

open Python Runs

/-! ### Arguments and errors -/

structure ApprovalArgs where
  runId : String
  gateId : String := ""
  candidateSha : String
  spec : String
  phase : String
  operator : String
  reason : String := ""
  dryRun : Bool := false

/-- What ends an attempt: its own two exceptions, an error of the database, or one of the file
system. -/
inductive ApproveError
  | refused (message : String)
  | notAwaiting (message : String)
  | database (e : DbError)
  | os (message : String)

/-- `str(exc)`. -/
def ApproveError.text (host : Host) : ApproveError → String
  | refused message     => message
  | notAwaiting message => message
  | database e          => e.message host.quote
  | os message          => message

/-- The state in which the journal row is closed after an error. -/
def ApproveError.closing : ApproveError → String
  | refused _ => "refused"
  | _         => "failed"

/-- `text[:n]`. -/
def firstChars (n : ℕ) (text : String) : String := String.ofList (text.toList.take n)

/-- Placeholder operator names that are never a real approval. -/
def placeholderOperators : List String := ["", "operator", "operator-test", "test", "aio", "AIO"]

section Attempt

variable (host : Host)

/-! ### The checks -/

/-- What is checked before the database is opened. -/
def checkArguments (a : ApprovalArgs) : Except ApproveError Unit :=
  if a.operator ∈ placeholderOperators then
    .error (.refused ("operator " ++ host.quote a.operator ++ " is a placeholder — an approval " ++
      "with no real approver is not an approval; the AIO carries the controller's name"))
  else if a.candidateSha ∈ ["", "deadbeef"] ∨ a.candidateSha.length < 7 then
    .error (.refused ("candidate_sha " ++ host.quote a.candidateSha ++ " is not a real sha — " ++
      "the approval must bind a real candidate"))
  else .ok ()

/-- What is checked against the run's own row and its gate context. -/
def checkIdentity (a : ApprovalArgs) (s : ControlTables) : Except ApproveError Unit :=
  match s.db.getRun a.runId with
  | none     => .error (.refused ("no run " ++ host.quote a.runId ++ " in the control db"))
  | some run =>
    let rowSha := strip run.candidateSha
    let expectedGates := s.runGateContext run true
    if run.state ≠ .awaitingApproval ∧ run.state ≠ .failed then
      .error (.notAwaiting ("run " ++ a.runId ++ " is " ++ run.state.value ++
        ", not awaiting_approval — no approval is needed"))
    else if run.specName ≠ a.spec then
      .error (.refused ("run " ++ a.runId ++ " executes spec " ++ host.quote run.specName ++
        ", not " ++ host.quote a.spec ++ " — the approval must bind the waiting run's own spec"))
    else if rowSha = "" then
      .error (.refused ("run " ++ a.runId ++ " names no candidate sha — there is no tree to bind " ++
        "the approval to"))
    else if ¬ (startsWith rowSha a.candidateSha ∨ startsWith a.candidateSha rowSha) then
      .error (.refused ("candidate " ++ firstChars 12 a.candidateSha ++ " is not run " ++ a.runId ++
        "'s candidate (" ++ firstChars 12 rowSha ++ ") — the approval must bind the run's own tree"))
    else if expectedGates = [] then
      .error (.notAwaiting ("run " ++ a.runId ++ " has no pending approval gate for its " ++
        "candidate — nothing is awaiting a decision"))
    else if a.gateId ∉ expectedGates then
      .error (.refused ("gate " ++ host.quote a.gateId ++ " is not in run " ++ a.runId ++
        "'s pending gate context (" ++ ", ".intercalate (expectedGates.map host.quote) ++
        ") — a run-level approval carries no gate; an unrelated gate never authorizes this run"))
    else .ok ()

/-! ### The calls of the database -/

/-- Where a call of the database fails: before its transaction is committed, or after it. -/
inductive DbFault
  | before (e : DbError)
  | after (e : DbError)

/-- A call, and what it leaves when it fails where it does. -/
def faulty {α : Type} (fault : Option DbFault)
    (call : ControlTables → Except DbError (ControlTables × α)) (s : ControlTables) :
    ControlTables × Except DbError α :=
  match fault with
  | some (.before e) => (s, .error e)
  | some (.after e)  =>
    match call s with
    | .error e'    => (s, .error e')
    | .ok (t, _)   => (t, .error e)
  | none             =>
    match call s with
    | .error e'    => (s, .error e')
    | .ok (t, a)   => (t, .ok a)

namespace ControlTables

/-- `record_command_intent`. -/
def recordIntent (a : RecordCommandIntent) (hex clock : String) (s : ControlTables) :
    Except DbError (ControlTables × CommandRecord) := do
  match ← recordCommandIntent host a hex clock s.journal with
  | .inl existing => .ok (s, existing)
  | .inr row      =>
    let journal ← s.journal.insert row
    .ok ({ s with journal := journal }, row)

/-- `complete_command`; the row it returns is not used. -/
def complete (a : CompleteCommand) (clock : String) (s : ControlTables) :
    Except DbError (ControlTables × Unit) := do
  let state ← completeCommand host a s.journal
  .ok ({ s with journal :=
    s.journal.update a.commandId state (host.dumps (.obj a.receipt)) (orElse a.now clock) }, ())

end ControlTables

/-! ### The attempt -/

/-- What an attempt meets: where its calls of the database fail, the artifact's path and its commit
as the file system and git give them, and the fresh ids and clock readings it is handed. -/
structure ApprovalScene where
  reading : Option DbError := none
  intent : Option DbFault := none
  artifact : Except ApproveError String
  commit : Except ApproveError String
  recording : Option DbFault := none
  closing : Option DbFault := none
  commandHex : String
  approvalHex : String
  clock : String
  today : String

/-- The act's key: the run and the candidate. -/
def ApprovalArgs.key (a : ApprovalArgs) : String := "approve:" ++ a.runId ++ ":" ++ a.candidateSha

def ApprovalArgs.intent (a : ApprovalArgs) : RecordCommandIntent where
  verb := "approve"
  actor := "aio"
  rationale := a.reason
  runId := a.runId
  candidateSha := a.candidateSha
  targetKind := "gate"
  targetId := if a.gateId = "" then a.spec ++ "/" ++ a.phase else a.gateId
  idempotencyKey := a.key
  detail := [("gate_id", .str a.gateId), ("spec", .str a.spec), ("phase", .str a.phase),
    ("operator", .str a.operator)]

def ApprovalArgs.approval (a : ApprovalArgs) (artifact artifactCommit today : String) :
    RecordApproval where
  runId := a.runId
  gateId := a.gateId
  candidateSha := a.candidateSha
  operator := a.operator
  artifactPath := artifact
  purpose := purposeCheckpoint
  decisionJson := host.dumps (.obj [("schema", .str "approval-decision/v1"),
    ("purpose", .str "checkpoint"), ("run_id", .str a.runId), ("gate_id", .str a.gateId),
    ("candidate_sha", .str a.candidateSha), ("operator", .str a.operator), ("date", .str today),
    ("artifact", .str artifact), ("artifact_commit", .str artifactCommit),
    ("status", .str "approved")])

def approvalReceipt (approvalId artifact artifactCommit : String) : Dict Json :=
  [("approval_id", .str approvalId), ("artifact", .str artifact),
    ("artifact_commit", .str artifactCommit)]

/-- How an attempt ended: the store it left, the journal row it was handed, and whether it
returned. -/
structure ApprovalEnd where
  store : ControlTables
  command : Option CommandRecord := none
  ended : Except ApproveError Unit

/-- The act between the intent and the receipt: the artifact, its commit, the approval. -/
def performApproval (a : ApprovalArgs) (scene : ApprovalScene) (s : ControlTables) :
    ControlTables × Except ApproveError (ApprovalRecord × String × String) :=
  match scene.artifact with
  | .error e     => (s, .error e)
  | .ok artifact =>
    match scene.commit with
    | .error e           => (s, .error e)
    | .ok artifactCommit =>
      match faulty scene.recording (ControlTables.recordApproval
        (a.approval host artifact artifactCommit scene.today) scene.approvalHex scene.clock) s with
      | (t, .error e)     => (t, .error (.database e))
      | (t, .ok approval) => (t, .ok (approval, artifact, artifactCommit))

/-- The last step: after an error the row is closed as well as it can be and the error is raised
again; otherwise the receipt is written. -/
def closeApproval (command : CommandRecord) (scene : ApprovalScene) (t : ControlTables) :
    Except ApproveError (ApprovalRecord × String × String) → ApprovalEnd
  | .error e =>
    let closed := faulty scene.closing (ControlTables.complete host
      { commandId := command.commandId, state := e.closing
        receipt := [("error", .str (firstChars 400 (e.text host)))] } scene.clock) t
    { store := closed.1, command := command, ended := .error e }
  | .ok (approval, artifact, artifactCommit) =>
    let closed := faulty scene.closing (ControlTables.complete host
      { commandId := command.commandId, state := "completed"
        receipt := approvalReceipt approval.approvalId artifact artifactCommit } scene.clock) t
    { store := closed.1, command := command, ended := closed.2.mapError .database }

/-- `_run_approval`, less the emission of the decision, whose failures it ignores. -/
def runApproval (a : ApprovalArgs) (scene : ApprovalScene) (s : ControlTables) : ApprovalEnd :=
  match checkArguments host a with
  | .error e => { store := s, ended := .error e }
  | .ok ()   =>
    match scene.reading with
    | some e => { store := s, ended := .error (.database e) }
    | none   =>
      match checkIdentity host a s with
      | .error e => { store := s, ended := .error e }
      | .ok ()   =>
        if a.dryRun then { store := s, ended := scene.artifact.map fun _ => () }
        else
          match faulty scene.intent
            (ControlTables.recordIntent host a.intent scene.commandHex scene.clock) s with
          | (t, .error e)    => { store := t, ended := .error (.database e) }
          | (t, .ok command) =>
            let act := performApproval host a scene t
            closeApproval host command scene act.1 act.2

/-! ### Runs -/

/-- An attempt, or other writers leaving the runs, their gates and other approvals as they do. -/
inductive ApprovalStep
  | attempt (a : ApprovalArgs) (scene : ApprovalScene)
  | elsewhere (db : Tables) (gateRows : List GateResultRecord) (approvalRows : List ApprovalRecord)

def approvalStep (s : ControlTables) : ApprovalStep → ControlTables
  | .attempt a scene                    => (runApproval host a scene s).store
  | .elsewhere db gateRows approvalRows =>
    { s with db := db, gateRows := gateRows, approvalRows := approvalRows }

/-- An attempt that records an approval returns, and the row it was handed ends completed with the
receipt of that approval; the row it was handed had not ended before. -/
structure OwnOutcome (a : ApprovalArgs) (scene : ApprovalScene) (s : ControlTables) : Prop where
  received : ∀ approval,
    (runApproval host a scene s).store.approvalRows = s.approvalRows ++ [approval] →
      (runApproval host a scene s).ended = .ok () ∧
      ∃ command, (runApproval host a scene s).command = some command ∧
        ∃ row ∈ (runApproval host a scene s).store.journal.rows,
          row.commandId = command.commandId ∧ row.state = .completed ∧
          ∃ artifact artifactCommit, row.receiptJson =
            host.dumps (.obj (approvalReceipt approval.approvalId artifact artifactCommit))
  unended : ∀ command, (runApproval host a scene s).command = some command →
    command.state.isTerminal = false

/-- Every attempt of the run has an outcome of its own. -/
def OwnOutcomes (s : ControlTables) : ApprovalStep → Prop
  | .attempt a scene => OwnOutcome host a scene s
  | .elsewhere _ _ _ => True

/-! ### Keys that were closed -/

/-- What an attempt has once its intent is recorded: the store and the row it was handed. -/
def admission (a : ApprovalArgs) (scene : ApprovalScene) (s : ControlTables) :
    Option (ControlTables × CommandRecord) :=
  match checkArguments host a, scene.reading, checkIdentity host a s with
  | .ok (), none, .ok () =>
    if a.dryRun then none
    else
      match faulty scene.intent
        (ControlTables.recordIntent host a.intent scene.commandHex scene.clock) s with
      | (t, .ok command) => some (t, command)
      | (_, .error _)    => none
  | _, _, _              => none

/-- The approval gets as far as the database and is recorded there. -/
def Recordable (a : ApprovalArgs) (scene : ApprovalScene) (s : ControlTables) : Prop :=
  ∃ artifact artifactCommit, scene.artifact = .ok artifact ∧ scene.commit = .ok artifactCommit ∧
    (∀ e, scene.recording ≠ some (.before e)) ∧
    ∃ t approval, s.recordApproval (a.approval host artifact artifactCommit scene.today)
      scene.approvalHex scene.clock = .ok (t, approval)

/-- The outcome of the attempt reaches the journal. -/
def ApprovalScene.closes (scene : ApprovalScene) : Bool :=
  match scene.closing with
  | some (.before _) => false
  | _                => true

/-- A run with the keys under which an outcome was written, by a command before the run or by an
attempt of it. -/
structure ApprovalHistory where
  store : ControlTables
  closed : List String

namespace ApprovalHistory

/-- The keys of the commands that ended before the run. -/
def start (s : ControlTables) : ApprovalHistory where
  store := s
  closed := (s.journal.rows.filter fun r => r.state.isTerminal).map CommandRecord.idempotencyKey

def step (h : ApprovalHistory) (i : ApprovalStep) : ApprovalHistory where
  store := approvalStep host h.store i
  closed :=
    match i with
    | .attempt a scene =>
      if (admission host a scene h.store).isSome ∧ scene.closes then a.key :: h.closed else h.closed
    | .elsewhere _ _ _ => h.closed

/-- No outcome was written before for the run and the candidate of an attempt that gets as far as
its intent, and what it records does not fail afterwards. -/
def ActsOnce (h : ApprovalHistory) : ApprovalStep → Prop
  | .attempt a scene =>
    (admission host a scene h.store).isSome →
      a.key ∉ h.closed ∧ (Recordable host a scene h.store →
        scene.recording = none ∧ scene.closing = none)
  | .elsewhere _ _ _ => True

/-- The keys are those of the commands that ended. -/
def Kept (h : ApprovalHistory) : Prop :=
  ∀ key, key ∈ h.closed ↔
    ∃ r ∈ h.store.journal.rows, r.idempotencyKey = key ∧ r.state.isTerminal

lemma kept_start (s : ControlTables) : (start s).Kept := by
  intro key
  simp only [start, List.mem_map, List.mem_filter]
  constructor
  · rintro ⟨r, ⟨hr, hended⟩, rfl⟩
    exact ⟨r, hr, rfl, hended⟩
  · rintro ⟨r, hr, rfl, hended⟩
    exact ⟨r, ⟨hr, hended⟩, rfl⟩

end ApprovalHistory

/-! ### The calls -/

variable {host : Host} {a : ApprovalArgs} {scene : ApprovalScene} {s t : ControlTables}
  {command : CommandRecord}

lemma faulty_eq_ok {α : Type} {fault : Option DbFault} {x : α}
    {call : ControlTables → Except DbError (ControlTables × α)} :
    faulty fault call s = (t, .ok x) ↔ fault = none ∧ call s = .ok (t, x) := by
  rcases fault with _ | ⟨e⟩ | ⟨e⟩
  · rw [faulty]
    cases hcall : call s with
    | error e => simp
    | ok result => cases result; simp
  · simp [faulty]
  · rw [faulty]
    cases hcall : call s with
    | error e' => simp
    | ok result => cases result; simp

lemma faulty_eq_error {α : Type} {fault : Option DbFault} {e : DbError}
    {call : ControlTables → Except DbError (ControlTables × α)}
    (h : faulty fault call s = (t, .error e)) : t = s ∨ ∃ x, call s = .ok (t, x) := by
  rcases fault with _ | ⟨e'⟩ | ⟨e'⟩
  · rw [faulty] at h
    split at h <;> cases h
    exact Or.inl rfl
  · cases h
    exact Or.inl rfl
  · rw [faulty] at h
    split at h
    · cases h
      exact Or.inl rfl
    · rename_i hcall
      cases h
      exact Or.inr ⟨_, hcall⟩

lemma ApprovalArgs.key_ne_empty (a : ApprovalArgs) : a.intent.idempotencyKey ≠ "" := by
  intro hempty
  have hlist := congrArg String.toList hempty
  simp [ApprovalArgs.intent, ApprovalArgs.key] at hlist

lemma recordIntent_eq_ok {i : RecordCommandIntent} {hex clock : String}
    (h : ControlTables.recordIntent host i hex clock s = .ok (t, command))
    (hkey : i.idempotencyKey ≠ "") :
    command.idempotencyKey = i.idempotencyKey ∧ command ∈ t.journal.rows ∧
      t = { s with journal := t.journal } ∧
      (t.journal = s.journal ∨
        command.state = .intent ∧ t.journal.rows = s.journal.rows ++ [command]) := by
  rw [ControlTables.recordIntent] at h
  obtain ⟨found, hfound, h⟩ := bind_eq_ok.mp h
  simp only [recordCommandIntent] at hfound
  obtain ⟨v, -, hfound⟩ := bind_eq_ok.mp hfound
  obtain ⟨who, -, hfound⟩ := bind_eq_ok.mp hfound
  rw [if_neg hkey] at hfound
  split at hfound
  case h_1 existing hexisting =>
    cases hfound
    cases h
    have hmatch := List.find?_some hexisting
    simp only [decide_eq_true_eq] at hmatch
    exact ⟨hmatch, List.mem_of_find?_eq_some hexisting, rfl, Or.inl rfl⟩
  case h_2 hnone =>
    cases hfound
    obtain ⟨journal, hinsert, h⟩ := bind_eq_ok.mp h
    cases h
    obtain ⟨hrows, -⟩ := JournalClients.insert_eq_ok hinsert
    refine ⟨rfl, ?_, rfl, Or.inr ⟨rfl, hrows⟩⟩
    rw [hrows]
    exact List.mem_append_right _ (List.mem_singleton.mpr rfl)

lemma CommandTable.command?_of_mem {table : CommandTable} (hmem : command ∈ table.rows) :
    table.command? command.commandId = some command := by
  rw [CommandTable.command?]
  cases hfind : table.rows.find? fun r => r.commandId = command.commandId with
  | none =>
    have hnone := List.find?_eq_none.mp hfind command hmem
    simp at hnone
  | some r =>
    have hid := List.find?_some hfind
    simp only [decide_eq_true_eq] at hid
    rw [table.row_unique (List.mem_of_find?_eq_some hfind) hmem hid]

lemma CommandState.find_transition {now target : CommandState} (hlive : now.isTerminal = false)
    (hfinal : target = .completed ∨ target = .failed ∨ target = .refused) :
    (now.transitions.find? fun s => s.value = target.value) = some target := by
  cases now <;> rcases hfinal with rfl | rfl | rfl <;> first | rfl | cases hlive

section Complete

variable {c : CompleteCommand} {clock : String}

lemma complete_ended (host : Host) (clock : String) (hmem : command ∈ t.journal.rows) (hended : command.state.isTerminal = true)
    (hc : c.commandId = command.commandId) :
    ∃ e, ControlTables.complete host c clock t = .error e := by
  have hnone : command.state.transitions = [] := List.isEmpty_iff.mp hended
  have hrefused : ∃ e, completeCommand host c t.journal = .error e := by
    rw [completeCommand, hc, CommandTable.command?_of_mem hmem]
    simp [hnone]
  obtain ⟨e, he⟩ := hrefused
  exact ⟨e, by rw [ControlTables.complete, he]; rfl⟩

lemma complete_live (host : Host) (clock : String) (hmem : command ∈ t.journal.rows) (hlive : command.state.isTerminal = false)
    (hc : c.commandId = command.commandId) {state : CommandState} (hstate : c.state = state.value)
    (hfinal : state = .completed ∨ state = .failed ∨ state = .refused) :
    ControlTables.complete host c clock t =
      .ok ({ t with
        journal := t.journal.update command.commandId state (host.dumps (.obj c.receipt))
          (orElse c.now clock) }, ()) := by
  have hmove : completeCommand host c t.journal = .ok state := by
    rw [completeCommand, hc, CommandTable.command?_of_mem hmem, hstate]
    dsimp only
    rw [CommandState.find_transition hlive hfinal]
  rw [ControlTables.complete, hmove, ← hc]
  rfl

end Complete

lemma closing_value (e : ApproveError) :
    ∃ state, e.closing = CommandState.value state ∧
      (state = .completed ∨ state = .failed ∨ state = .refused) := by
  cases e
  case refused => exact ⟨.refused, rfl, by simp⟩
  all_goals exact ⟨.failed, rfl, by simp⟩

/-! ### What an attempt does -/

lemma performApproval_cases (host : Host) (a : ApprovalArgs) (scene : ApprovalScene) (t : ControlTables) :
    (∃ approval, Recordable host a scene t ∧
      (performApproval host a scene t).1 =
        { t with approvalRows := t.approvalRows ++ [approval] } ∧
      ((scene.recording = none ∧ ∃ artifact artifactCommit,
          (performApproval host a scene t).2 = .ok (approval, artifact, artifactCommit)) ∨
        (scene.recording ≠ none ∧ ∃ e, (performApproval host a scene t).2 = .error e))) ∨
    (¬ Recordable host a scene t ∧ (performApproval host a scene t).1 = t ∧
      ∃ e, (performApproval host a scene t).2 = .error e) := by
  have hstore : ∀ r hex clock u approval, t.recordApproval r hex clock = .ok (u, approval) →
      u = { t with approvalRows := t.approvalRows ++ [approval] } := by
    intro r hex clock u approval h
    rw [ControlTables.recordApproval] at h
    obtain ⟨sha, -, h⟩ := bind_eq_ok.mp h
    obtain ⟨who, -, h⟩ := bind_eq_ok.mp h
    dsimp only at h
    split_ifs at h
    cases h
    rfl
  rw [performApproval]
  cases hartifact : scene.artifact with
  | error e =>
    refine Or.inr ⟨?_, rfl, e, rfl⟩
    rintro ⟨artifact, -, h, -⟩
    rw [hartifact] at h
    cases h
  | ok artifact =>
    dsimp only
    cases hcommit : scene.commit with
    | error e =>
      refine Or.inr ⟨?_, rfl, e, rfl⟩
      rintro ⟨-, artifactCommit, -, h, -⟩
      rw [hcommit] at h
      cases h
    | ok artifactCommit =>
      dsimp only
      cases hcall : t.recordApproval (a.approval host artifact artifactCommit scene.today)
          scene.approvalHex scene.clock with
      | error e =>
        refine Or.inr ⟨?_, ?_⟩
        · rintro ⟨artifact', artifactCommit', hartifact', hcommit', -, u, approval, h⟩
          rw [hartifact] at hartifact'
          rw [hcommit] at hcommit'
          cases hartifact'
          cases hcommit'
          rw [hcall] at h
          cases h
        · rcases hrecording : scene.recording with _ | ⟨e'⟩ | ⟨e'⟩ <;>
            exact ⟨by simp [faulty, hcall], by simp [faulty, hcall]⟩
      | ok result =>
        obtain ⟨u, approval⟩ := result
        have hu := hstore _ _ _ _ _ hcall
        rcases hrecording : scene.recording with _ | ⟨e⟩ | ⟨e⟩
        · refine Or.inl ⟨approval, ⟨artifact, artifactCommit, hartifact, hcommit,
            by simp [hrecording], u, approval, hcall⟩, ?_, Or.inl ⟨rfl, artifact,
            artifactCommit, ?_⟩⟩
          · simp [faulty, hcall, hu]
          · simp [faulty, hcall]
        · refine Or.inr ⟨?_, by simp [faulty], by simp [faulty]⟩
          rintro ⟨-, -, -, -, h, -⟩
          exact h e hrecording
        · refine Or.inl ⟨approval, ⟨artifact, artifactCommit, hartifact, hcommit,
            by simp [hrecording], u, approval, hcall⟩, ?_, Or.inr ⟨by simp, ?_⟩⟩
          · simp [faulty, hcall, hu]
          · simp [faulty, hcall]

lemma closeApproval_ended (hmem : command ∈ t.journal.rows)
    (hended : command.state.isTerminal = true)
    (act : Except ApproveError (ApprovalRecord × String × String)) :
    (closeApproval host command scene t act).store = t ∧
      (closeApproval host command scene t act).ended ≠ .ok () := by
  have hkept : ∀ c : CompleteCommand, c.commandId = command.commandId →
      (faulty scene.closing (ControlTables.complete host c scene.clock) t).1 = t ∧
      (faulty scene.closing (ControlTables.complete host c scene.clock) t).2 ≠ .ok () := by
    intro c hc
    obtain ⟨e, he⟩ := complete_ended host scene.clock hmem hended hc
    rcases scene.closing with _ | ⟨e'⟩ | ⟨e'⟩ <;> simp [faulty, he]
  rcases act with e | ⟨approval, artifact, artifactCommit⟩
  · exact ⟨(hkept _ rfl).1, by simp [closeApproval]⟩
  · refine ⟨(hkept _ rfl).1, ?_⟩
    rw [closeApproval]
    intro hok
    exact (hkept _ rfl).2 (mapError_eq_ok.mp hok)

lemma faulty_complete_live (host : Host) (scene : ApprovalScene) (hmem : command ∈ t.journal.rows)
    (hlive : command.state.isTerminal = false) {c : CompleteCommand}
    (hc : c.commandId = command.commandId) {state : CommandState} (hstate : c.state = state.value)
    (hfinal : state = .completed ∨ state = .failed ∨ state = .refused) :
    (scene.closes = false ∧
        (faulty scene.closing (ControlTables.complete host c scene.clock) t).1 = t ∧
        (faulty scene.closing (ControlTables.complete host c scene.clock) t).2 ≠ .ok ()) ∨
      (scene.closes = true ∧
        (faulty scene.closing (ControlTables.complete host c scene.clock) t).1 = { t with
          journal := t.journal.update command.commandId state (host.dumps (.obj c.receipt))
            (orElse c.now scene.clock) } ∧
        ((faulty scene.closing (ControlTables.complete host c scene.clock) t).2 = .ok () ↔
          scene.closing = none)) := by
  have hcall := complete_live host scene.clock hmem hlive hc hstate hfinal
  rcases hclosing : scene.closing with _ | ⟨e⟩ | ⟨e⟩
  · exact Or.inr ⟨by simp [ApprovalScene.closes, hclosing], by simp [faulty, hcall],
      by simp [faulty, hcall]⟩
  · exact Or.inl ⟨by simp [ApprovalScene.closes, hclosing], by simp [faulty], by simp [faulty]⟩
  · exact Or.inr ⟨by simp [ApprovalScene.closes, hclosing], by simp [faulty, hcall],
      by simp [faulty, hcall]⟩

lemma closeApproval_live (scene : ApprovalScene) (hmem : command ∈ t.journal.rows)
    (hlive : command.state.isTerminal = false)
    (act : Except ApproveError (ApprovalRecord × String × String)) :
    (scene.closes = false ∧ (closeApproval host command scene t act).store = t ∧
        (closeApproval host command scene t act).ended ≠ .ok ()) ∨
      (scene.closes = true ∧ ∃ state receiptJson stamp, state.isTerminal = true ∧
        (closeApproval host command scene t act).store =
          { t with journal := t.journal.update command.commandId state receiptJson stamp } ∧
        (∀ approval artifact artifactCommit, act = .ok (approval, artifact, artifactCommit) →
          state = .completed ∧ receiptJson =
            host.dumps (.obj (approvalReceipt approval.approvalId artifact artifactCommit))) ∧
        ((closeApproval host command scene t act).ended = .ok () ↔
          scene.closing = none ∧ ∃ result, act = .ok result)) := by
  rcases act with e | ⟨approval, artifact, artifactCommit⟩
  · obtain ⟨state, hstate, hfinal⟩ := closing_value e
    have hterminal : state.isTerminal = true := by rcases hfinal with rfl | rfl | rfl <;> rfl
    rw [closeApproval]
    rcases faulty_complete_live host scene hmem hlive
      (c := { commandId := command.commandId, state := e.closing
              receipt := [("error", .str (firstChars 400 (e.text host)))] })
      rfl hstate hfinal with ⟨hcloses, hsame, -⟩ | ⟨hcloses, hstore, -⟩
    · exact Or.inl ⟨hcloses, hsame, by simp⟩
    · exact Or.inr ⟨hcloses, state, _, _, hterminal, hstore, by simp, by simp⟩
  · rw [closeApproval]
    rcases faulty_complete_live host scene hmem hlive
      (c := { commandId := command.commandId, state := "completed"
              receipt := approvalReceipt approval.approvalId artifact artifactCommit })
      rfl (show "completed" = CommandState.value .completed from rfl) (Or.inl rfl) with
      ⟨hcloses, hsame, herror⟩ | ⟨hcloses, hstore, hok⟩
    · exact Or.inl ⟨hcloses, hsame, fun h => herror (mapError_eq_ok.mp h)⟩
    · refine Or.inr ⟨hcloses, .completed, _, _, rfl, hstore, ?_, ?_⟩
      · intro approval' artifact' artifactCommit' h
        cases h
        exact ⟨rfl, rfl⟩
      · rw [mapError_eq_ok, hok]
        simp

def CommandTable.Ended (key : String) (table : CommandTable) : Prop :=
  ∃ r ∈ table.rows, r.idempotencyKey = key ∧ r.state.isTerminal

lemma CommandTable.ended_append {table table' : CommandTable} {key : String}
    (hrows : table'.rows = table.rows ++ [command]) (hlive : command.state.isTerminal = false) :
    table'.Ended key ↔ table.Ended key := by
  constructor
  · rintro ⟨r, hr, hkey, hended⟩
    rw [hrows] at hr
    rcases List.mem_append.mp hr with hr | hr
    · exact ⟨r, hr, hkey, hended⟩
    · rw [List.mem_singleton.mp hr, hlive] at hended
      cases hended
  · rintro ⟨r, hr, hkey, hended⟩
    exact ⟨r, by rw [hrows]; exact List.mem_append_left _ hr, hkey, hended⟩

lemma CommandTable.ended_update {table : CommandTable} {key receiptJson stamp : String}
    {state : CommandState} (hmem : command ∈ table.rows) (hstate : state.isTerminal = true) :
    (table.update command.commandId state receiptJson stamp).Ended key ↔
      table.Ended key ∨ key = command.idempotencyKey := by
  constructor
  · rintro ⟨r, hr, hkey, hended⟩
    obtain ⟨old, hold, rfl⟩ := List.mem_map.mp hr
    by_cases hid : old.commandId = command.commandId
    · right
      rw [← table.row_unique hold hmem hid, ← hkey, settle_idempotencyKey]
    · rw [settle_of_ne hid] at hkey hended
      exact Or.inl ⟨old, hold, hkey, hended⟩
  · rintro (⟨r, hr, hkey, hended⟩ | rfl)
    · refine ⟨_, List.mem_map_of_mem hr, by rw [settle_idempotencyKey, hkey], ?_⟩
      rw [settle]
      split
      · exact hstate
      · exact hended
    · refine ⟨_, List.mem_map_of_mem hmem, settle_idempotencyKey, ?_⟩
      rw [settle, if_pos rfl]
      exact hstate

lemma admission_eq_some (h : admission host a scene s = some (t, command)) :
    command.idempotencyKey = a.key ∧ command ∈ t.journal.rows ∧
      t = { s with journal := t.journal } ∧
      (∀ key, t.journal.Ended key ↔ s.journal.Ended key) ∧
      runApproval host a scene s = closeApproval host command scene
        (performApproval host a scene t).1 (performApproval host a scene t).2 := by
  rw [admission] at h
  split at h
  case h_2 => cases h
  case h_1 hargs hreading hidentity =>
    split_ifs at h with hdry
    split at h
    case h_2 => cases h
    case h_1 u c hintent =>
      cases h
      obtain ⟨-, hcall⟩ := faulty_eq_ok.mp hintent
      obtain ⟨hsame, hmem, hstore, hrows⟩ := recordIntent_eq_ok hcall a.key_ne_empty
      refine ⟨hsame, hmem, hstore, ?_, ?_⟩
      · intro key
        rcases hrows with hjournal | ⟨hstate, hrows⟩
        · rw [hjournal]
        · exact CommandTable.ended_append hrows (by rw [hstate]; rfl)
      · simp only [runApproval, hargs, hreading, hidentity, hintent]
        rw [if_neg (by simpa using hdry)]

lemma admission_eq_none (h : admission host a scene s = none) :
    (runApproval host a scene s).command = none ∧
      (runApproval host a scene s).store.approvalRows = s.approvalRows ∧
      ∀ key, (runApproval host a scene s).store.journal.Ended key ↔ s.journal.Ended key := by
  rw [runApproval]
  cases hargs : checkArguments host a with
  | error e => exact ⟨rfl, rfl, fun _ => Iff.rfl⟩
  | ok =>
    dsimp only
    cases hreading : scene.reading with
    | some e => exact ⟨rfl, rfl, fun _ => Iff.rfl⟩
    | none =>
      dsimp only
      cases hidentity : checkIdentity host a s with
      | error e => exact ⟨rfl, rfl, fun _ => Iff.rfl⟩
      | ok =>
        dsimp only
        split_ifs with hdry
        · exact ⟨rfl, rfl, fun _ => Iff.rfl⟩
        · simp only [admission, hargs, hreading, hidentity, if_neg hdry] at h
          rcases hintent : faulty scene.intent
            (ControlTables.recordIntent host a.intent scene.commandHex scene.clock) s with
            ⟨t, e | command⟩
          · refine ⟨rfl, ?_⟩
            rcases faulty_eq_error hintent with rfl | ⟨command, hcall⟩
            · exact ⟨rfl, fun _ => Iff.rfl⟩
            · obtain ⟨-, -, hstore, hrows⟩ := recordIntent_eq_ok hcall a.key_ne_empty
              dsimp only
              rw [hstore]
              refine ⟨rfl, fun key => ?_⟩
              rcases hrows with hjournal | ⟨hstate, hrows⟩
              · rw [hjournal]
              · exact CommandTable.ended_append hrows (by rw [hstate]; rfl)
          · rw [hintent] at h
            cases h

lemma recordable_congr (hstore : t = { s with journal := t.journal }) :
    Recordable host a scene t ↔ Recordable host a scene s := by
  have hcall : ∀ r hex clock, (∃ u approval, t.recordApproval r hex clock = .ok (u, approval)) ↔
      ∃ u approval, s.recordApproval r hex clock = .ok (u, approval) := by
    intro r hex clock
    rw [hstore, ControlTables.recordApproval, ControlTables.recordApproval]
    cases require r.candidateSha "candidate_sha" with
    | error e => exact Iff.rfl
    | ok sha =>
      cases require r.operator "operator" with
      | error e => exact Iff.rfl
      | ok who =>
        simp only [Bind.bind, Except.bind]
        split_ifs <;> simp
  simp only [Recordable, hcall]

namespace ApprovalHistory

variable {h : ApprovalHistory}

lemma Kept.iff_ended (hkept : h.Kept) (key : String) :
    key ∈ h.closed ↔ h.store.journal.Ended key := hkept key

lemma ended_iff_closed (hkept : h.Kept) (hadmission : admission host a scene h.store = some (t, command)) :
    command.state.isTerminal = true ↔ a.key ∈ h.closed := by
  obtain ⟨hkey, hmem, -, hended, -⟩ := admission_eq_some hadmission
  rw [hkept.iff_ended, ← hended]
  constructor
  · intro hterminal
    exact ⟨command, hmem, hkey, hterminal⟩
  · rintro ⟨r, hr, hrkey, hterminal⟩
    have hne : a.key ≠ "" := a.key_ne_empty
    have hid := t.journal.keys r hr command hmem (hrkey.trans hkey.symm) (by rwa [hrkey])
    rwa [← t.journal.row_unique hr hmem hid]

lemma kept_step (hkept : h.Kept) (i : ApprovalStep) : (h.step host i).Kept := by
  cases i with
  | elsewhere db gateRows approvalRows => exact hkept
  | attempt a scene =>
    intro key
    change _ ↔ (runApproval host a scene h.store).store.journal.Ended key
    simp only [step]
    cases hadmission : admission host a scene h.store with
    | none =>
      obtain ⟨-, -, hended⟩ := admission_eq_none hadmission
      rw [hended, if_neg (by simp)]
      exact hkept key
    | some result =>
      obtain ⟨t, command⟩ := result
      obtain ⟨hkey, hmem, -, hended, hrun⟩ := admission_eq_some hadmission
      -- the act is in between, and leaves the journal alone
      have hjournal : (performApproval host a scene t).1.journal = t.journal := by
        rcases performApproval_cases host a scene t with ⟨_, -, hact, -⟩ | ⟨-, hact, -⟩ <;>
          rw [hact]
      rw [← hjournal] at hmem
      rw [hrun]
      cases hlive : command.state.isTerminal with
      | true =>
        rw [(closeApproval_ended hmem hlive _).1, hjournal, hended, ← hkept.iff_ended]
        have hclosed := (ended_iff_closed hkept hadmission).mp hlive
        split_ifs
        · rw [List.mem_cons]
          exact or_iff_right_of_imp fun heq => heq ▸ hclosed
        · exact Iff.rfl
      | false =>
        rcases closeApproval_live scene hmem hlive (performApproval host a scene t).2
          with ⟨hcloses, hstore, -⟩ | ⟨hcloses, state, receiptJson, stamp, hstate, hstore, -, -⟩
        · rw [if_neg (by simp [hcloses]), hstore, hjournal, hended]
          exact hkept key
        · rw [if_pos ⟨rfl, hcloses⟩, hstore, CommandTable.ended_update hmem hstate, hjournal,
            hended, hkey, List.mem_cons, ← hkept.iff_ended, or_comm]

/-- One attempt has an outcome of its own exactly if it acts on a key that was not closed and what
it records does not fail afterwards. -/
lemma ownOutcomes_iff (hkept : h.Kept) (i : ApprovalStep) :
    OwnOutcomes host h.store i ↔ h.ActsOnce host i := by
  cases i with
  | elsewhere db gateRows approvalRows => exact Iff.rfl
  | attempt a scene =>
    cases hadmission : admission host a scene h.store with
    | none =>
      obtain ⟨hcommand, happrovals, -⟩ := admission_eq_none hadmission
      refine iff_of_true ⟨fun approval hrecorded => ?_, fun command hsome => ?_⟩
        (by simp [ActsOnce, hadmission])
      · rw [happrovals] at hrecorded
        exact absurd (List.self_eq_append_right.mp hrecorded) (List.cons_ne_nil _ _)
      · rw [hcommand] at hsome
        cases hsome
    | some result =>
      obtain ⟨t, command⟩ := result
      obtain ⟨hkey, hmem, hstore, -, hrun⟩ := admission_eq_some hadmission
      have hclosed := ended_iff_closed hkept hadmission
      have hhanded : (runApproval host a scene h.store).command = some command := by
        rw [hrun]
        cases (performApproval host a scene t).2 <;> rfl
      have hrows : t.approvalRows = h.store.approvalRows := by rw [hstore]
      have hjournal : (performApproval host a scene t).1.journal = t.journal := by
        rcases performApproval_cases host a scene t with ⟨_, -, hact, -⟩ | ⟨-, hact, -⟩ <;>
          rw [hact]
      rw [← hjournal] at hmem
      constructor
      · rintro ⟨hreceived, hunended⟩ -
        have hlive := hunended command hhanded
        refine ⟨by rw [← hclosed, hlive]; simp, fun hrecordable => ?_⟩
        rcases performApproval_cases host a scene t with
          ⟨approval, -, hact, hresult⟩ | ⟨hnot, -⟩
        · rcases closeApproval_live scene hmem hlive (performApproval host a scene t).2
            with ⟨-, hafter, herror⟩ | ⟨-, state, receiptJson, stamp, -, hafter, -, hok⟩
          · have hended := (hreceived approval (by rw [hrun, hafter, hact, hrows])).1
            rw [hrun] at hended
            exact absurd hended herror
          · have hended := (hreceived approval (by rw [hrun, hafter, hact, hrows])).1
            rw [hrun] at hended
            obtain ⟨hclosing, result, hresult'⟩ := hok.mp hended
            refine ⟨?_, hclosing⟩
            rcases hresult with ⟨hnone, -⟩ | ⟨-, e, herror⟩
            · exact hnone
            · rw [herror] at hresult'
              cases hresult'
        · exact absurd ((recordable_congr hstore).mpr hrecordable) hnot
      · intro honce
        obtain ⟨hfresh, hnofault⟩ := honce (by simp [hadmission])
        have hlive : command.state.isTerminal = false := by
          rw [← hclosed] at hfresh
          simpa using hfresh
        refine ⟨fun approval hrecorded => ?_, fun c hc => ?_⟩
        · rcases performApproval_cases host a scene t with
            ⟨approval', hrecordable, hact, hresult⟩ | ⟨-, hact, -⟩
          · obtain ⟨hrecording, hclosing⟩ := hnofault ((recordable_congr hstore).mp hrecordable)
            obtain ⟨-, artifact, artifactCommit, hresult⟩ | ⟨hfailed, -⟩ := hresult
            · rcases closeApproval_live scene hmem hlive
                (performApproval host a scene t).2 with
                ⟨hcloses, -⟩ | ⟨-, state, receiptJson, stamp, -, hafter, hreceipt, hok⟩
              · simp [ApprovalScene.closes, hclosing] at hcloses
              · have hsame : approval' = approval := by
                  rw [hrun, hafter, hact, hrows] at hrecorded
                  simpa using hrecorded
                obtain ⟨hstate, hjson⟩ := hreceipt _ _ _ hresult
                refine ⟨?_, command, hhanded, ?_⟩
                · rw [hrun]
                  exact hok.mpr ⟨hclosing, _, hresult⟩
                · rw [hrun, hafter]
                  refine ⟨_, List.mem_map_of_mem hmem, CommandTable.settle_commandId, ?_⟩
                  rw [CommandTable.settle, if_pos rfl]
                  exact ⟨hstate, artifact, artifactCommit, by rw [hjson, hsame]⟩
            · exact absurd hrecording hfailed
          · -- nothing was recorded
            have happrovals : (runApproval host a scene h.store).store.approvalRows =
                h.store.approvalRows := by
              rw [hrun, ← hrows]
              rcases closeApproval_live scene hmem hlive
                (performApproval host a scene t).2 with
                ⟨-, hafter, -⟩ | ⟨-, _, _, _, -, hafter, -⟩ <;> rw [hafter, hact]
            rw [happrovals] at hrecorded
            exact absurd (List.self_eq_append_right.mp hrecorded) (List.cons_ne_nil _ _)
        · rw [hhanded] at hc
          cases hc
          exact hlive

end ApprovalHistory

/-- Along any sequence of attempts, every attempt has an outcome of its own if and only if no attempt
acts on a run and a candidate for which an outcome was written before, and nothing fails once an
approval is recorded. -/
theorem approval_outcomes_own_iff (host : Host) (s : ControlTables) (steps : List ApprovalStep) :
    Along (approvalStep host) (OwnOutcomes host) s steps ↔
      Along (ApprovalHistory.step host) (ApprovalHistory.ActsOnce host) (.start s) steps :=
  along_iff_along ApprovalHistory.store (fun _ _ => rfl)
    (fun _ i hkept => ApprovalHistory.kept_step hkept i)
    (fun _ i hkept => ApprovalHistory.ownOutcomes_iff hkept i)
    (ApprovalHistory.kept_start s) steps

end Attempt

/-! ### Two gates of one candidate -/

/-- A run that stopped with two gates pending. -/
def twoGates : ControlTables where
  db := { runs := [{
    runId := "run-1", specName := "nightly", workflowRevisionId := "", candidateSha := "abcdef1"
    state := .awaitingApproval, model := "", startedAt := "", endedAt := "", ledgerPath := ""
    costUsd := .finite 0 }] }
  gateRows := ["gate-a", "gate-b"].map fun gateId =>
    { gateId, runId := "run-1", stepId := "review", verdict := .pass, evidenceJson := ""
      executor := "", candidateSha := "abcdef1", startedAt := "", endedAt := "" }
  approvalRows := []
  journal := emptyJournal

def approveGate (gateId : String) : ApprovalArgs where
  runId := "run-1"
  gateId := gateId
  candidateSha := "abcdef1"
  spec := "nightly"
  phase := "review"
  operator := "dana"

def quietScene (hex : String) : ApprovalScene where
  artifact := .ok "approvals/nightly/review_approval.md"
  commit := .ok "abcdef2"
  commandHex := hex
  approvalHex := hex
  clock := "2026-09-20T10:00:00Z"
  today := "2026-09-20"

def approvalOfB : ApprovalRecord :=
  { approvalId := "apr-0b", runId := "run-1", gateId := "gate-b", candidateSha := "abcdef1"
    operator := "dana", decidedAt := "2026-09-20T10:00:00Z"
    artifactPath := "approvals/nightly/review_approval.md", purpose := "checkpoint"
    decisionJson := "\x7b\x7d" }

lemma second_gate_computed :
    let s := approvalStep journalHost twoGates (.attempt (approveGate "gate-a") (quietScene "0a"))
    let second := runApproval journalHost (approveGate "gate-b") (quietScene "0b") s
    second.store.approvalRows = s.approvalRows ++ [approvalOfB] ∧ second.ended.isOk = false := by
  decide +kernel

/-- Both gates are approved one after the other: the second approval is recorded, and its attempt
raises because the receipt of the first closed the row they share. -/
theorem second_gate_lost :
    ¬ Along (approvalStep journalHost) (OwnOutcomes journalHost) twoGates
      [.attempt (approveGate "gate-a") (quietScene "0a"),
        .attempt (approveGate "gate-b") (quietScene "0b")] := by
  rintro ⟨-, hsecond, -⟩
  obtain ⟨hrecorded, hraised⟩ := second_gate_computed
  have hended := (hsecond.received approvalOfB hrecorded).1
  rw [hended] at hraised
  cases hraised

end AgenticDynamics.Control
