import AgenticDynamics.Library.Runs
import AgenticDynamics.Control.ControlDb

/-!
# The command journal

A command records its intent before its effect and the outcome after it. Both methods read the
journal in one statement and write it in a later transaction, so that another caller's commit can
fall in between.
-/

namespace AgenticDynamics.Control

open Python Runs

/-! ### States -/

inductive CommandState
  | intent
  | accepted
  | completed
  | failed
  | refused
  deriving DecidableEq, Repr

namespace CommandState

def value : CommandState → String
  | intent    => "intent"
  | accepted  => "accepted"
  | completed => "completed"
  | failed    => "failed"
  | refused   => "refused"

/-- `COMMAND_TRANSITIONS`. -/
def transitions : CommandState → List CommandState
  | intent    => [accepted, completed, failed, refused]
  | accepted  => [completed, failed, refused]
  | completed => []
  | failed    => []
  | refused   => []

def isTerminal (s : CommandState) : Bool := s.transitions.isEmpty

end CommandState

/-! ### The table -/

structure CommandRecord where
  commandId : String
  verb : String
  actor : String
  rationale : String
  rationaleRef : String
  runId : String
  candidateSha : String
  targetKind : String
  targetId : String
  idempotencyKey : String
  state : CommandState
  detailJson : String
  receiptJson : String
  createdAt : String
  updatedAt : String

/-- What the command came to, as far as the row tells. -/
def CommandRecord.outcome (r : CommandRecord) : CommandState × String := (r.state, r.receiptJson)

/-- `command_journal`, with its primary key and the unique index over the keys that are not
empty. -/
structure CommandTable where
  rows : List CommandRecord
  ids : (rows.map CommandRecord.commandId).Nodup
  keys : ∀ r ∈ rows, ∀ r' ∈ rows, r.idempotencyKey = r'.idempotencyKey →
    r.idempotencyKey ≠ "" → r.commandId = r'.commandId

namespace CommandTable

/-- `command`. -/
def command? (commandId : String) (t : CommandTable) : Option CommandRecord :=
  t.rows.find? fun r => r.commandId = commandId

/-- The row of a key among `commands()`; the index leaves at most one, wherever it is listed. -/
def withKey? (key : String) (t : CommandTable) : Option CommandRecord :=
  t.rows.find? fun r => r.idempotencyKey = key

/-- Neither the id nor the key of the row is taken. -/
def Admits (t : CommandTable) (row : CommandRecord) : Prop :=
  ∀ r ∈ t.rows, r.commandId ≠ row.commandId ∧
    (row.idempotencyKey ≠ "" → r.idempotencyKey ≠ row.idempotencyKey)

instance (t : CommandTable) (row : CommandRecord) : Decidable (t.Admits row) :=
  inferInstanceAs (Decidable (∀ r ∈ t.rows, r.commandId ≠ row.commandId ∧
    (row.idempotencyKey ≠ "" → r.idempotencyKey ≠ row.idempotencyKey)))

/-- `INSERT INTO command_journal`. -/
def insert (row : CommandRecord) (t : CommandTable) : Except DbError CommandTable :=
  if h : t.Admits row then
    .ok {
      rows := t.rows ++ [row]
      ids := by
        rw [List.map_append, List.map_cons, List.map_nil, List.nodup_append]
        refine ⟨t.ids, List.nodup_singleton _, fun id hid id' hid' => ?_⟩
        obtain ⟨r, hr, rfl⟩ := List.mem_map.mp hid
        rw [List.mem_singleton.mp hid']
        exact (h r hr).1
      keys := by
        intro r hr r' hr' hkey hne
        rcases List.mem_append.mp hr with hr | hr <;> rcases List.mem_append.mp hr' with hr' | hr'
        · exact t.keys r hr r' hr' hkey hne
        · rw [List.mem_singleton.mp hr'] at hkey
          exact absurd hkey ((h r hr).2 (hkey ▸ hne))
        · rw [List.mem_singleton.mp hr] at hkey hne
          exact absurd hkey.symm ((h r' hr').2 hne)
        · rw [List.mem_singleton.mp hr, List.mem_singleton.mp hr'] }
  else .error (.integrity (
    if t.rows.any fun r => r.commandId = row.commandId then
      "UNIQUE constraint failed: command_journal.command_id"
    else "UNIQUE constraint failed: command_journal.idempotency_key"))

def settle (commandId : String) (state : CommandState) (receiptJson stamp : String)
    (r : CommandRecord) : CommandRecord :=
  if r.commandId = commandId then
    { r with state := state, receiptJson := receiptJson, updatedAt := stamp }
  else r

section Settle

variable {commandId : String} {state : CommandState} {receiptJson stamp : String}
  {r : CommandRecord}

@[simp] lemma settle_commandId :
    (settle commandId state receiptJson stamp r).commandId = r.commandId := by
  rw [settle]
  split <;> rfl

@[simp] lemma settle_idempotencyKey :
    (settle commandId state receiptJson stamp r).idempotencyKey = r.idempotencyKey := by
  rw [settle]
  split <;> rfl

lemma settle_outcome_self :
    (settle r.commandId state receiptJson stamp r).outcome = (state, receiptJson) := by
  rw [settle, if_pos rfl]
  rfl

lemma settle_of_ne (h : r.commandId ≠ commandId) :
    settle commandId state receiptJson stamp r = r := if_neg h

end Settle

/-- `UPDATE command_journal … WHERE command_id = ?`; this table has no trigger. -/
def update (commandId : String) (state : CommandState) (receiptJson stamp : String)
    (t : CommandTable) : CommandTable where
  rows := t.rows.map (settle commandId state receiptJson stamp)
  ids := by
    have hids : (t.rows.map (settle commandId state receiptJson stamp)).map
        CommandRecord.commandId = t.rows.map CommandRecord.commandId := by simp
    rw [hids]
    exact t.ids
  keys := by
    intro r hr r' hr' hkey hne
    obtain ⟨old, hold, rfl⟩ := List.mem_map.mp hr
    obtain ⟨old', hold', rfl⟩ := List.mem_map.mp hr'
    simp only [settle_idempotencyKey, settle_commandId] at hkey hne ⊢
    exact t.keys old hold old' hold' hkey hne

lemma row_unique (t : CommandTable) {r r' : CommandRecord} (hr : r ∈ t.rows) (hr' : r' ∈ t.rows)
    (hid : r.commandId = r'.commandId) : r = r' :=
  List.inj_on_of_nodup_map t.ids hr hr' hid

end CommandTable

/-! ### The two methods -/

structure RecordCommandIntent where
  verb : String
  actor : String
  rationale : String := ""
  rationaleRef : String := ""
  runId : String := ""
  candidateSha : String := ""
  targetKind : String := ""
  targetId : String := ""
  idempotencyKey : String := ""
  detail : Dict Json := []
  commandId : Option String := none
  now : Option String := none

structure CompleteCommand where
  commandId : String
  state : String
  receipt : Dict Json := []
  now : Option String := none

section Methods

variable (host : Host)

/-- What `record_command_intent` does before its transaction, with the random part of a new id and
the clock: the row of the key, if there is one, else the row to insert. -/
def recordCommandIntent (a : RecordCommandIntent) (hex clock : String) (t : CommandTable) :
    Except DbError (CommandRecord ⊕ CommandRecord) := do
  let v ← require a.verb "verb"
  let who ← require a.actor "actor"
  let stamp := orElse a.now clock
  let cid := orElse a.commandId ("cmd-" ++ hex)
  let row : CommandRecord :=
    { commandId := cid, verb := v, actor := who, rationale := a.rationale
      rationaleRef := a.rationaleRef, runId := a.runId, candidateSha := a.candidateSha
      targetKind := a.targetKind, targetId := a.targetId, idempotencyKey := a.idempotencyKey
      state := .intent, detailJson := host.dumps (.obj a.detail), receiptJson := ""
      createdAt := stamp, updatedAt := stamp }
  if a.idempotencyKey = "" then return .inr row
  match t.withKey? a.idempotencyKey with
  | some existing => return .inl existing
  | none          => return .inr row

/-- What `complete_command` checks before its transaction: the state to move to. -/
def completeCommand (a : CompleteCommand) (t : CommandTable) : Except DbError CommandState :=
  match t.command? a.commandId with
  | none         =>
    .error (.external "ControlDBError" ("control_db: no command " ++ host.quote a.commandId))
  | some current =>
    match current.state.transitions.find? fun s => s.value = a.state with
    | some state => .ok state
    | none       =>
      .error (.external "ControlDBError" ("control_db: command " ++ a.commandId ++
        " cannot move " ++ host.quote current.state.value ++ " -> " ++ host.quote a.state))

/-! ### Several callers -/

/-- Where a caller stands in a call: it is about to commit what it decided on, or to read back the
row, for a submission with its key. -/
inductive CommandCall
  | idle
  | inserting (row : CommandRecord)
  | updating (commandId : String) (state : CommandState) (receiptJson stamp : String)
  | fetching (key : Option String) (commandId : String)

/-- The journal and its callers, with all outcomes committed and the answers to all submissions,
both oldest first. -/
structure JournalClients where
  table : CommandTable
  calls : ℕ → CommandCall := fun _ => .idle
  commits : List (String × CommandState × String)
  answers : List (String × Except DbError CommandRecord) := []

inductive JournalStep
  | recordIntent (caller : ℕ) (a : RecordCommandIntent) (hex clock : String)
  | complete (caller : ℕ) (a : CompleteCommand) (clock : String)
  | commit (caller : ℕ)
  | fetch (caller : ℕ)

namespace JournalClients

/-- Nobody has called yet; the rows there are tell their outcomes. -/
def start (table : CommandTable) : JournalClients where
  table := table
  commits := table.rows.map fun r => (r.commandId, r.outcome)

def goto (caller : ℕ) (call : CommandCall) (s : JournalClients) : JournalClients :=
  { s with calls := Function.update s.calls caller call }

def answer (caller : ℕ) (key : String) (result : Except DbError CommandRecord)
    (s : JournalClients) : JournalClients :=
  { s.goto caller .idle with answers := s.answers ++ [(key, result)] }

/-- A call that raises before its transaction leaves no trace; a submission that is refused for
its arguments is none. -/
def step (s : JournalClients) : JournalStep → JournalClients
  | .recordIntent caller a hex clock =>
    match s.calls caller with
    | .idle =>
      match recordCommandIntent host a hex clock s.table with
      | .error _             => s
      | .ok (.inl existing)  => s.answer caller a.idempotencyKey (.ok existing)
      | .ok (.inr row)       => s.goto caller (.inserting row)
    | _     => s
  | .complete caller a clock         =>
    match s.calls caller with
    | .idle =>
      match completeCommand host a s.table with
      | .error _  => s
      | .ok state =>
        s.goto caller (.updating a.commandId state (host.dumps (.obj a.receipt))
          (orElse a.now clock))
    | _     => s
  | .commit caller                   =>
    match s.calls caller with
    | .inserting row =>
      match s.table.insert row with
      | .error e  => s.answer caller row.idempotencyKey (.error e)
      | .ok table =>
        { s with table := table }.goto caller
          (.fetching (some row.idempotencyKey) row.commandId)
    | .updating commandId state receiptJson stamp =>
      { s with
        table := s.table.update commandId state receiptJson stamp
        commits := s.commits ++ [(commandId, state, receiptJson)] }.goto caller
          (.fetching none commandId)
    | _              => s
  | .fetch caller                    =>
    match s.calls caller with
    | .fetching (some key) commandId =>
      s.answer caller key (match s.table.command? commandId with
        | some row => .ok row
        | none     => .error (.external "ControlDBError"
            ("control_db: no command " ++ host.quote commandId)))
    | .fetching none _               => s.goto caller .idle
    | _                              => s

/-! ### What is promised -/

/-- The first terminal outcome committed for a command. -/
def firstOutcome (commandId : String) (s : JournalClients) : Option (CommandState × String) :=
  (s.commits.find? fun c => c.1 = commandId ∧ c.2.1.isTerminal).map Prod.snd

/-- The first terminal outcome of every command is the one its row tells. -/
def OutcomesKept (s : JournalClients) : Prop :=
  ∀ commandId outcome, s.firstOutcome commandId = some outcome →
    ∃ r ∈ s.table.rows, r.commandId = commandId ∧ r.outcome = outcome

/-- Every submission under a key that ended returned the stored row of the key. -/
def Served (s : JournalClients) : Prop :=
  ∀ key result, (key, result) ∈ s.answers → key ≠ "" →
    ∃ row, result = .ok row ∧ row.idempotencyKey = key ∧
      ∃ r ∈ s.table.rows, r.commandId = row.commandId ∧ r.idempotencyKey = key

def Honoured (s : JournalClients) : Prop := s.OutcomesKept ∧ s.Served

/-- What a caller is about to commit still fits the journal: a submission under a key finds
neither the key nor its id, and an outcome meets no other terminal one. -/
def Unopposed (s : JournalClients) : JournalStep → Prop
  | .commit caller =>
    match s.calls caller with
    | .inserting row => row.idempotencyKey ≠ "" → s.table.Admits row
    | .updating commandId state receiptJson _ =>
      ∀ r ∈ s.table.rows, r.commandId = commandId → r.state.isTerminal →
        r.outcome = (state, receiptJson)
    | _ => True
  | _ => True

/-! ### What every run keeps -/

/-- A row about to be inserted is an intent; the row that a submission reads back is stored, the
row of an outcome too; a command whose row is terminal has a terminal outcome among those
committed. -/
structure Sound (s : JournalClients) : Prop where
  fresh : ∀ caller row, s.calls caller = .inserting row → row.state.isTerminal = false
  inserted : ∀ caller key commandId, s.calls caller = .fetching (some key) commandId →
    ∃ r ∈ s.table.rows, r.commandId = commandId ∧ r.idempotencyKey = key
  known : ∀ caller commandId state receiptJson stamp,
    s.calls caller = .updating commandId state receiptJson stamp →
    ∃ r ∈ s.table.rows, r.commandId = commandId
  committed : ∀ r ∈ s.table.rows, r.state.isTerminal → (s.firstOutcome r.commandId).isSome

variable {s : JournalClients} {caller : ℕ}

lemma goto_calls {call : CommandCall} {c : ℕ} :
    (s.goto caller call).calls c = if c = caller then call else s.calls c :=
  Function.update_apply s.calls caller call c

lemma Sound.goto (h : Sound s) {call : CommandCall}
    (hfresh : ∀ row, call = .inserting row → row.state.isTerminal = false)
    (hinserted : ∀ key commandId, call = .fetching (some key) commandId →
      ∃ r ∈ s.table.rows, r.commandId = commandId ∧ r.idempotencyKey = key)
    (hknown : ∀ commandId state receiptJson stamp,
      call = .updating commandId state receiptJson stamp →
      ∃ r ∈ s.table.rows, r.commandId = commandId) :
    Sound (s.goto caller call) := by
  refine ⟨fun c row hc => ?_, fun c key commandId hc => ?_,
    fun c commandId state receiptJson stamp hc => ?_, h.committed⟩
  · rw [goto_calls] at hc
    split_ifs at hc
    · exact hfresh row hc
    · exact h.fresh c row hc
  · rw [goto_calls] at hc
    split_ifs at hc
    · exact hinserted key commandId hc
    · exact h.inserted c key commandId hc
  · rw [goto_calls] at hc
    split_ifs at hc
    · exact hknown commandId state receiptJson stamp hc
    · exact h.known c commandId state receiptJson stamp hc

lemma Sound.idle (h : Sound s) : Sound (s.goto caller .idle) :=
  h.goto (fun _ hc => by cases hc) (fun _ _ hc => by cases hc) fun _ _ _ _ hc => by cases hc

lemma Sound.answer (h : Sound s) {key : String} {result : Except DbError CommandRecord} :
    Sound (s.answer caller key result) := by
  have hidle : Sound (s.goto caller .idle) := h.idle
  exact ⟨hidle.fresh, hidle.inserted, hidle.known, hidle.committed⟩

lemma honoured_answer (h : Honoured s) {key : String} {result : Except DbError CommandRecord} :
    Honoured (s.answer caller key result) ↔ (key ≠ "" →
      ∃ row, result = .ok row ∧ row.idempotencyKey = key ∧
        ∃ r ∈ s.table.rows, r.commandId = row.commandId ∧ r.idempotencyKey = key) := by
  constructor
  · rintro ⟨-, hserved⟩ hkey
    exact hserved key result (List.mem_append_right _ (List.mem_singleton.mpr rfl)) hkey
  · intro hresult
    refine ⟨h.1, fun key' result' hmem hkey => ?_⟩
    rcases List.mem_append.mp hmem with hmem | hmem
    · exact h.2 key' result' hmem hkey
    · cases List.mem_singleton.mp hmem
      exact hresult hkey

lemma insert_eq_ok {row : CommandRecord} {t table : CommandTable}
    (h : t.insert row = .ok table) : table.rows = t.rows ++ [row] ∧ t.Admits row := by
  rw [CommandTable.insert] at h
  split at h
  · rename_i hadmits
    cases h
    exact ⟨rfl, hadmits⟩
  · cases h

lemma insert_eq_error {row : CommandRecord} {t : CommandTable} {e : DbError}
    (h : t.insert row = .error e) : ¬ t.Admits row := by
  rw [CommandTable.insert] at h
  split at h
  · cases h
  · assumption

section Grow

variable {table : CommandTable} {row : CommandRecord}

lemma Sound.grow (h : Sound s) (hrows : table.rows = s.table.rows ++ [row]) (hrow : row.state.isTerminal = false) :
    Sound { s with table := table } := by
  have hmem : ∀ r ∈ s.table.rows, r ∈ table.rows := fun r hr => by
    rw [hrows]
    exact List.mem_append_left _ hr
  refine ⟨h.fresh, fun c key commandId hc => ?_, fun c commandId state receiptJson stamp hc => ?_,
    fun r hr hterminal => ?_⟩
  · obtain ⟨r, hr, hid⟩ := h.inserted c key commandId hc
    exact ⟨r, hmem r hr, hid⟩
  · obtain ⟨r, hr, hid⟩ := h.known c commandId state receiptJson stamp hc
    exact ⟨r, hmem r hr, hid⟩
  · have hr : r ∈ s.table.rows ++ [row] := hrows ▸ hr
    rcases List.mem_append.mp hr with hr | hr
    · exact h.committed r hr hterminal
    · rw [List.mem_singleton.mp hr, hrow] at hterminal
      cases hterminal

lemma Honoured.grow (h : Honoured s) (hrows : table.rows = s.table.rows ++ [row]) : Honoured { s with table := table } := by
  have hmem : ∀ r ∈ s.table.rows, r ∈ table.rows := fun r hr => by
    rw [hrows]
    exact List.mem_append_left _ hr
  refine ⟨fun commandId outcome hfirst => ?_, fun key result hanswer hkey => ?_⟩
  · obtain ⟨r, hr, hkept⟩ := h.1 commandId outcome hfirst
    exact ⟨r, hmem r hr, hkept⟩
  · obtain ⟨row', hresult, hrowKey, r, hr, hid⟩ := h.2 key result hanswer hkey
    exact ⟨row', hresult, hrowKey, r, hmem r hr, hid⟩

end Grow

section Update

variable {commandId : String} {state : CommandState} {receiptJson stamp : String}

/-- The journal after an outcome was committed. -/
def settled (s : JournalClients) (commandId : String) (state : CommandState)
    (receiptJson stamp : String) : JournalClients :=
  { s with
    table := s.table.update commandId state receiptJson stamp
    commits := s.commits ++ [(commandId, state, receiptJson)] }

lemma firstOutcome_settled (id : String) :
    (s.settled commandId state receiptJson stamp).firstOutcome id =
      (s.firstOutcome id).or
        (if commandId = id ∧ state.isTerminal then some (state, receiptJson) else none) := by
  simp only [firstOutcome, settled, List.find?_append]
  cases hfound : s.commits.find? fun c => c.1 = id ∧ c.2.1.isTerminal with
  | some c => rfl
  | none =>
    by_cases hnew : commandId = id ∧ state.isTerminal
    · simp [hnew]
    · simp [hnew]

lemma Sound.settled (h : Sound s) : Sound (s.settled commandId state receiptJson stamp) := by
  refine ⟨h.fresh, fun c key id hc => ?_, fun c id state' receiptJson' stamp' hc => ?_,
    fun r hr hterminal => ?_⟩
  · obtain ⟨r, hr, hid, hkey⟩ := h.inserted c key id hc
    exact ⟨_, List.mem_map_of_mem hr, by simp [hid], by simp [hkey]⟩
  · obtain ⟨r, hr, hid⟩ := h.known c id state' receiptJson' stamp' hc
    exact ⟨_, List.mem_map_of_mem hr, by simp [hid]⟩
  · obtain ⟨old, hold, rfl⟩ := List.mem_map.mp hr
    rw [firstOutcome_settled, CommandTable.settle_commandId, Option.isSome_or]
    by_cases hid : old.commandId = commandId
    · rw [CommandTable.settle, if_pos hid] at hterminal
      rw [if_pos ⟨hid.symm, hterminal⟩]
      simp
    · rw [CommandTable.settle_of_ne hid] at hterminal
      rw [h.committed old hold hterminal]
      rfl

lemma honoured_settled (hs : Sound s) (h : Honoured s)
    (hknown : ∃ r ∈ s.table.rows, r.commandId = commandId) :
    Honoured (s.settled commandId state receiptJson stamp) ↔
      ∀ r ∈ s.table.rows, r.commandId = commandId → r.state.isTerminal →
        r.outcome = (state, receiptJson) := by
  constructor
  · rintro ⟨hkept, -⟩ r hr rfl hterminal
    obtain ⟨outcome, hfirst⟩ := Option.isSome_iff_exists.mp (hs.committed r hr hterminal)
    obtain ⟨r₀, hr₀, hid₀, houtcome⟩ := h.1 _ _ hfirst
    rw [s.table.row_unique hr₀ hr hid₀] at houtcome
    obtain ⟨r', hr', hid', houtcome'⟩ := hkept r.commandId outcome (by
      rw [firstOutcome_settled, hfirst]
      rfl)
    obtain ⟨old, hold, rfl⟩ := List.mem_map.mp hr'
    rw [CommandTable.settle_commandId] at hid'
    rw [s.table.row_unique hold hr hid', CommandTable.settle_outcome_self] at houtcome'
    rw [houtcome, houtcome']
  · intro hsame
    refine ⟨fun id outcome hfirst => ?_, fun key result hanswer hkey => ?_⟩
    · rw [firstOutcome_settled] at hfirst
      by_cases hid : commandId = id
      · subst hid
        obtain ⟨r, hr, hrid⟩ := hknown
        refine ⟨_, List.mem_map_of_mem hr, by simp [hrid], ?_⟩
        subst hrid
        rw [CommandTable.settle_outcome_self]
        cases hold : s.firstOutcome r.commandId with
        | none =>
          rw [hold, Option.none_or] at hfirst
          split_ifs at hfirst
          exact Option.some_injective _ hfirst
        | some first =>
          rw [hold, Option.some_or, Option.some_inj] at hfirst
          obtain ⟨r₀, hr₀, hid₀, houtcome⟩ := h.1 _ _ hold
          rw [s.table.row_unique hr₀ hr hid₀] at houtcome
          have hterminal : first.1.isTerminal = true := by
            rw [firstOutcome] at hold
            obtain ⟨c, hc, rfl⟩ := Option.map_eq_some_iff.mp hold
            have hc := List.find?_some hc
            simp only [decide_eq_true_eq] at hc
            exact hc.2
          rw [← hfirst, ← houtcome]
          rw [← houtcome] at hterminal
          exact (hsame r hr rfl hterminal).symm
      · rw [if_neg fun hboth => hid hboth.1, Option.or_none] at hfirst
        obtain ⟨r, hr, hrid, houtcome⟩ := h.1 id outcome hfirst
        refine ⟨_, List.mem_map_of_mem hr, by simp [hrid], ?_⟩
        rw [CommandTable.settle_of_ne fun heq => hid (heq.symm.trans hrid)]
        exact houtcome
    · obtain ⟨row, hresult, hrowKey, r, hr, hid, hrkey⟩ := h.2 key result hanswer hkey
      exact ⟨row, hresult, hrowKey, _, List.mem_map_of_mem hr, by simp [hid], by simp [hrkey]⟩

end Update

/-! ### Steps -/

variable {host}

lemma record_found {a : RecordCommandIntent} {hex clock : String} {t : CommandTable}
    {existing : CommandRecord} (h : recordCommandIntent host a hex clock t = .ok (.inl existing)) :
    existing ∈ t.rows ∧ existing.idempotencyKey = a.idempotencyKey := by
  simp only [recordCommandIntent, bind_eq_ok] at h
  obtain ⟨v, -, who, -, h⟩ := h
  split_ifs at h
  · cases h
  · split at h
    · rename_i row hrow
      cases h
      exact ⟨List.mem_of_find?_eq_some hrow, by simpa using List.find?_some hrow⟩
    · cases h

lemma record_new {a : RecordCommandIntent} {hex clock : String} {t : CommandTable}
    {row : CommandRecord} (h : recordCommandIntent host a hex clock t = .ok (.inr row)) :
    row.state = .intent := by
  simp only [recordCommandIntent, bind_eq_ok] at h
  obtain ⟨v, -, who, -, h⟩ := h
  split_ifs at h
  · cases h
    rfl
  · split at h
    · cases h
    · cases h
      rfl

lemma complete_known {a : CompleteCommand} {t : CommandTable} {state : CommandState}
    (h : completeCommand host a t = .ok state) : ∃ r ∈ t.rows, r.commandId = a.commandId := by
  rw [completeCommand] at h
  split at h
  · cases h
  · rename_i current hcurrent
    exact ⟨current, List.mem_of_find?_eq_some hcurrent, by simpa using List.find?_some hcurrent⟩

lemma step_updating {commandId receiptJson stamp : String} {state : CommandState}
    (h : s.calls caller = .updating commandId state receiptJson stamp) :
    s.step host (.commit caller) =
      (s.settled commandId state receiptJson stamp).goto caller (.fetching none commandId) := by
  simp only [step, h]
  rfl

lemma Sound.step (h : Sound s) (i : JournalStep) : Sound (s.step host i) := by
  cases i with
  | recordIntent caller a hex clock =>
    simp only [JournalClients.step]
    split
    · split
      · exact h
      · exact h.answer
      · rename_i row hrow
        refine h.goto (fun row' hc => ?_) (fun _ _ hc => by cases hc) fun _ _ _ _ hc => by cases hc
        cases hc
        rw [record_new hrow]
        rfl
    · exact h
  | complete caller a clock =>
    simp only [JournalClients.step]
    split
    · split
      · exact h
      · rename_i state hstate
        refine h.goto (fun _ hc => by cases hc) (fun _ _ hc => by cases hc) ?_
        intro commandId state' receiptJson stamp hc
        cases hc
        exact complete_known hstate
    · exact h
  | commit caller =>
    cases hcall : s.calls caller with
    | inserting row =>
      simp only [JournalClients.step, hcall]
      cases hinsert : s.table.insert row with
      | error e => exact h.answer
      | ok table =>
        obtain ⟨hrows, -⟩ := insert_eq_ok hinsert
        refine (h.grow hrows (h.fresh caller row hcall)).goto (fun _ hc => by cases hc) ?_
          fun _ _ _ _ hc => by cases hc
        intro key commandId hc
        cases hc
        exact ⟨row, by simp [hrows], rfl, rfl⟩
    | updating commandId state receiptJson stamp =>
      rw [step_updating hcall]
      refine h.settled.goto (fun _ hc => by cases hc) (fun _ _ hc => by cases hc) ?_
      intro _ _ _ _ hc
      cases hc
    | idle => simpa only [JournalClients.step, hcall] using h
    | fetching key commandId => simpa only [JournalClients.step, hcall] using h
  | fetch caller =>
    simp only [JournalClients.step]
    split
    · exact h.answer
    · exact h.idle
    · exact h

lemma honoured_step_iff (hs : Sound s) (h : Honoured s) (i : JournalStep) :
    Honoured (s.step host i) ↔ s.Unopposed i := by
  cases i with
  | recordIntent caller a hex clock =>
    refine iff_of_true ?_ trivial
    simp only [step]
    split
    · split
      · exact h
      · rename_i existing hfound
        obtain ⟨hmem, hkey⟩ := record_found hfound
        exact (honoured_answer h).mpr fun _ => ⟨existing, rfl, hkey, existing, hmem, rfl, hkey⟩
      · exact h
    · exact h
  | complete caller a clock =>
    refine iff_of_true ?_ trivial
    simp only [step]
    split
    · split
      · exact h
      · exact h
    · exact h
  | commit caller =>
    cases hcall : s.calls caller with
    | inserting row =>
      simp only [step, Unopposed, hcall]
      cases hinsert : s.table.insert row with
      | error e =>
        rw [honoured_answer h]
        constructor
        · intro hresult hkey
          obtain ⟨row', hok, -⟩ := hresult hkey
          cases hok
        · intro hadmits hkey
          exact absurd (hadmits hkey) (insert_eq_error hinsert)
      | ok table =>
        obtain ⟨hrows, hadmits⟩ := insert_eq_ok hinsert
        exact iff_of_true (h.grow hrows) fun _ => hadmits
    | updating commandId state receiptJson stamp =>
      rw [step_updating hcall]
      simp only [Unopposed, hcall]
      exact honoured_settled hs h (hs.known caller commandId state receiptJson stamp hcall)
    | idle => simpa only [step, Unopposed, hcall, iff_true] using h
    | fetching key commandId => simpa only [step, Unopposed, hcall, iff_true] using h
  | fetch caller =>
    refine iff_of_true ?_ trivial
    cases hcall : s.calls caller with
    | fetching key commandId =>
      cases key with
      | none =>
        simp only [step, hcall]
        exact h
      | some key =>
        simp only [step, hcall]
        obtain ⟨r, hr, hid, hkey⟩ := hs.inserted caller key commandId hcall
        refine (honoured_answer h).mpr fun _ => ?_
        have hfound : s.table.command? commandId = some r := by
          cases hfind : s.table.command? commandId with
          | none => exact absurd (decide_eq_true hid) (List.find?_eq_none.mp hfind r hr)
          | some r' =>
            have hid' : r'.commandId = commandId := by simpa using List.find?_some hfind
            rw [s.table.row_unique (List.mem_of_find?_eq_some hfind) hr (hid'.trans hid.symm)]
        rw [hfound]
        exact ⟨r, rfl, hkey, r, hr, rfl, hkey⟩
    | idle => simpa only [step, hcall] using h
    | inserting row => simpa only [step, hcall] using h
    | updating commandId state receiptJson stamp => simpa only [step, hcall] using h

lemma sound_start (table : CommandTable) : Sound (start table) := by
  constructor
  · intro c row hc
    cases hc
  · intro c key commandId hc
    cases hc
  · intro c commandId state receiptJson stamp hc
    cases hc
  · intro r hr hterminal
    rw [firstOutcome, Option.isSome_map, List.find?_isSome]
    exact ⟨_, List.mem_map_of_mem hr, by simpa [CommandRecord.outcome] using hterminal⟩

lemma honoured_start (table : CommandTable) : Honoured (start table) := by
  refine ⟨fun commandId outcome hfirst => ?_, fun key result hanswer => by cases hanswer⟩
  rw [firstOutcome] at hfirst
  obtain ⟨c, hc, rfl⟩ := Option.map_eq_some_iff.mp hfirst
  obtain ⟨r, hr, rfl⟩ := List.mem_map.mp (List.mem_of_find?_eq_some hc)
  have hid := List.find?_some hc
  simp only [decide_eq_true_eq] at hid
  exact ⟨r, hr, hid.1, rfl⟩

end JournalClients

/-- However the callers interleave, a first terminal outcome is never replaced and every submission
under a key returns the stored row of the key if and only if whatever is committed still fits the
journal it was decided on. -/
theorem journal_honoured_iff (table : CommandTable) (steps : List JournalStep) :
    Throughout (JournalClients.step host) JournalClients.Honoured (.start table) steps ↔
      Along (JournalClients.step host) JournalClients.Unopposed (.start table) steps :=
  throughout_iff_along (fun _ i hs => hs.step i) (fun _ i hs h => JournalClients.honoured_step_iff hs h i)
    (JournalClients.sound_start table) (JournalClients.honoured_start table)

end Methods

/-! ### Two approvals of one candidate -/

/-- A host whose `json.dumps` knows the empty object. -/
def journalHost : Host where
  loads _ := .error ("JSONDecodeError", "Expecting value: line 1 column 1 (char 0)")
  repr
    | .str text => "'" ++ text ++ "'"
    | _         => ""
  upper := id
  lower := id
  sha256 _ := ""
  dumps _ := "\x7b\x7d"
  fromisoformat _ := none

def emptyJournal : CommandTable := ⟨[], List.nodup_nil, fun _ hr => absurd hr List.not_mem_nil⟩

def approveCandidate : RecordCommandIntent :=
  { verb := "approve", actor := "aio", idempotencyKey := "approve:run-1:abc" }

/-- Two callers that both read the journal before either commits: the second submission raises, and
of two outcomes the second replaces the first. -/
theorem journal_race_lost :
    (¬ Throughout (JournalClients.step journalHost) JournalClients.Served (.start emptyJournal)
      [.recordIntent 0 approveCandidate "0a" "2026-09-01T10:00:00Z",
        .recordIntent 1 approveCandidate "0b" "2026-09-01T10:00:00Z", .commit 0, .commit 1]) ∧
    ¬ Throughout (JournalClients.step journalHost) JournalClients.OutcomesKept
      (.start emptyJournal)
      [.recordIntent 0 approveCandidate "0a" "2026-09-01T10:00:00Z", .commit 0, .fetch 0,
        .complete 0 ⟨"cmd-0a", "completed", [], none⟩ "2026-09-01T10:00:01Z",
        .complete 1 ⟨"cmd-0a", "failed", [], none⟩ "2026-09-01T10:00:01Z", .commit 0, .commit 1] := by
  constructor
  · intro h
    obtain ⟨row, hrow, -⟩ := h _ (List.prefix_refl _) "approve:run-1:abc"
      (.error (.integrity "UNIQUE constraint failed: command_journal.idempotency_key"))
      (List.mem_singleton.mpr rfl) (by decide)
    cases hrow
  · intro h
    obtain ⟨r, hr, -, houtcome⟩ := h _ (List.prefix_refl _) "cmd-0a" (.completed, "\x7b\x7d") rfl
    obtain rfl := List.mem_singleton.mp hr
    cases houtcome

end AgenticDynamics.Control
