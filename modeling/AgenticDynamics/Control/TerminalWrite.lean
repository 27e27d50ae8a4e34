import AgenticDynamics.Control.RunLifecycle

/-!
# The atomic terminal write

`enqueue_outbox_event` appends one pending outbox row for a stored run. `record_terminal_run`
composes a run transition and one such row for each payload inside one transaction; the methods
it calls open transactions of their own, which join the outer one.
-/

namespace AgenticDynamics.Control

open Python Script

variable {P : Type}

/-! ### Queueing an event -/

structure EnqueueOutboxEvent (P : Type) where
  runId : String
  payload : P
  eventId : Option String := none
  nextRetryAt : String := ""
  createdAt : Option String := none

def EnqueueOutboxEvent.row (a : EnqueueOutboxEvent P) (eid body createdAt : String) :
    OutboxRecord :=
  { eventId := eid, runId := a.runId, payloadJson := body, status := .pending, attempts := 0
    nextRetryAt := a.nextRetryAt, createdAt := createdAt }

/-- The transaction block of `enqueue_outbox_event`. -/
def enqueueBlock (a : EnqueueOutboxEvent P) (eid body : String) : DbScript Unit := do
  match ← query (Tables.getRun a.runId) with
  | none => raise (.unknownRun a.runId)
  | some _ =>
    let createdAt ← orNow a.createdAt
    execute (Tables.insertOutbox (a.row eid body createdAt))

/-- `dumps` is the JSON encoder, which refuses some payloads. -/
def enqueueOutboxEvent (dumps : P → Except DbError String) (a : EnqueueOutboxEvent P) :
    DbScript OutboxRecord := do
  requireWritable .readOnlyControlDB
  let eid ← orNewId a.eventId "evt"
  let body ← lift (dumps a.payload)
  let _ ← transaction .readOnlyControlDB (enqueueBlock a eid body)
  reread (Tables.getOutboxEvent eid)

/-- `row` is what an enqueue call may add. -/
def Queued (dumps : P → Except DbError String) (a : EnqueueOutboxEvent P) (row : OutboxRecord) :
    Prop :=
  ∃ body createdAt, dumps a.payload = .ok body ∧ StampOf a.createdAt createdAt ∧
    row = a.row row.eventId body createdAt

lemma Tables.getOutboxEvent_snoc {db : Tables} {eventId : String} {row : OutboxRecord}
    (hid : row.eventId = eventId) (h : db.getOutboxEvent eventId = none) :
    ({ db with outbox := db.outbox ++ [row] } : Tables).getOutboxEvent eventId = some row := by
  simp only [getOutboxEvent] at h
  simp [getOutboxEvent, List.find?_append, h, hid]

lemma enqueueBlock_ensures (a : EnqueueOutboxEvent P) (eid body : String) (s : Tables) :
    Ensures (enqueueBlock a eid body) (fun _ t => ∃ createdAt, StampOf a.createdAt createdAt ∧
      s.getOutboxEvent eid = none ∧
      t = { s with outbox := s.outbox ++ [a.row eid body createdAt] }) s := by
  refine ensures_bind (ensures_query ?_)
  cases s.getRun a.runId with
  | none => exact ensures_raise _
  | some run =>
    refine ensures_bind (ensures_orNow fun createdAt hcreated => ensures_execute fun t ht => ?_)
    simp only [Tables.insertOutbox] at ht
    split_ifs at ht with hdup
    cases ht
    exact ⟨createdAt, hcreated, Option.not_isSome_iff_eq_none.mp hdup, rfl⟩

lemma enqueueOutboxEvent_ensures (dumps : P → Except DbError String) (a : EnqueueOutboxEvent P)
    (s : Tables) :
    Ensures (enqueueOutboxEvent dumps a)
      (fun row t => Queued dumps a row ∧ s.getOutboxEvent row.eventId = none ∧
        t = { s with outbox := s.outbox ++ [row] }) s := by
  refine ensures_bind (ensures_requireWritable ?_)
  refine ensures_bind (ensures_orNewId fun eid => ?_)
  refine ensures_bind (ensures_lift fun body hbody => ?_)
  refine ensures_bind (ensures_transaction ((enqueueBlock_ensures a eid body s).mono ?_))
  rintro _ _ ⟨createdAt, hcreated, hnew, rfl⟩
  refine ensures_reread fun row hrow => ?_
  rw [Tables.getOutboxEvent_snoc (by rfl) hnew] at hrow
  cases hrow
  exact ⟨⟨body, createdAt, hbody, hcreated, rfl⟩, hnew, rfl⟩

lemma enqueueOutboxEvent_commits (dumps : P → Except DbError String)
    (a : EnqueueOutboxEvent P) :
    Commits (enqueueOutboxEvent dumps a) fun s t => ∃ row, Queued dumps a row ∧
      s.getOutboxEvent row.eventId = none ∧ t = { s with outbox := s.outbox ++ [row] } := by
  refine commits_bind_left (reads_requireWritable _) fun _ => ?_
  refine commits_bind_left (reads_orNewId _ _) fun eid => ?_
  refine commits_bind_lift fun body hbody => ?_
  refine commits_bind_right (commits_transaction fun s => ?_) fun _ => reads_reread _
  refine (enqueueBlock_ensures a eid body s).mono ?_
  rintro _ _ ⟨createdAt, hcreated, hnew, rfl⟩
  exact ⟨a.row eid body createdAt, ⟨body, createdAt, hbody, hcreated, rfl⟩, hnew, rfl⟩

/-! ### The terminal write -/

structure RecordTerminalRun (P : Type) where
  runId : String
  state : StateArg RunState
  payloads : List P := []
  reason : String := ""
  actor : String := "orchestrator"
  costUsd : Option PyFloat := none
  ledgerPath : Option String := none
  resultDigest : Option String := none
  candidateSha : Option String := none
  endedAt : Option String := none
  stamp : Option String := none

/-- The transition a terminal write asks for. -/
def RecordTerminalRun.transition (a : RecordTerminalRun P) : TransitionRun :=
  { runId := a.runId, newState := a.state, reason := a.reason, actor := a.actor, stamp := a.stamp
    costUsd := a.costUsd, candidateSha := a.candidateSha, ledgerPath := a.ledgerPath
    resultDigest := a.resultDigest, endedAt := a.endedAt }

/-- The enqueue call a terminal write makes for one payload. -/
def RecordTerminalRun.enqueue (a : RecordTerminalRun P) (payload : P) : EnqueueOutboxEvent P :=
  { runId := a.runId, payload := payload, createdAt := a.stamp }

structure TerminalWrite where
  run : RunRecord
  events : List OutboxRecord := []

def recordTerminalRun (dumps : P → Except DbError String) (a : RecordTerminalRun P) :
    DbScript TerminalWrite := do
  let (run, rows) ← transaction .readOnlyControlDB do
    let run ← transitionRun a.transition
    let rows ← collect (fun payload => enqueueOutboxEvent dumps (a.enqueue payload)) a.payloads
    pure (run, rows)
  let committed ← query (Tables.getRun a.runId)
  pure ⟨committed.getD run, rows⟩

/-- Everything a terminal write owes, in one store: the accepted transition, and one new row for
each payload in order. -/
def TerminalCommit (dumps : P → Except DbError String) (a : RecordTerminalRun P)
    (rows : List OutboxRecord) (s t : Tables) : Prop :=
  ∃ target now u, coerceRunState a.state = .ok target ∧ StampOf a.stamp now ∧
    Transitioned a.transition target now s u ∧
    List.Forall₂ (fun payload row => Queued dumps (a.enqueue payload) row) a.payloads rows ∧
    (∀ row ∈ rows, s.getOutboxEvent row.eventId = none) ∧
    (rows.map OutboxRecord.eventId).Nodup ∧ t = { u with outbox := s.outbox ++ rows }

lemma Transitioned.outbox_eq {a : TransitionRun} {target : RunState} {now : String}
    {s t : Tables} (h : Transitioned a target now s t) : t.outbox = s.outbox := by
  obtain ⟨current, -, -, rfl⟩ := h
  rfl

lemma transitionRun_ensures (a : TransitionRun) (s : Tables) :
    Ensures (transitionRun a) (fun _ t => ∃ target now, coerceRunState a.newState = .ok target ∧
      StampOf a.stamp now ∧ Transitioned a target now s t) s := by
  refine ensures_bind (ensures_requireWritable ?_)
  refine ensures_bind (ensures_lift fun target htarget => ?_)
  refine ensures_bind (ensures_orNow fun now hnow => ?_)
  refine ensures_bind (ensures_transaction ?_)
  refine (transitionBlock_ensures a target now s).mono fun _ t ht => ?_
  exact ensures_reread fun _ _ => ⟨target, now, htarget, hnow, ht⟩

lemma enqueueAll_ensures (dumps : P → Except DbError String) (a : RecordTerminalRun P)
    (s : Tables) :
    Ensures (collect (fun payload => enqueueOutboxEvent dumps (a.enqueue payload)) a.payloads)
      (fun rows t =>
        List.Forall₂ (fun payload row => Queued dumps (a.enqueue payload) row) a.payloads rows ∧
        (∀ row ∈ rows, s.getOutboxEvent row.eventId = none) ∧
        (rows.map OutboxRecord.eventId).Nodup ∧ t = { s with outbox := s.outbox ++ rows }) s := by
  refine ensures_collect (s := s) (P := fun done rows t =>
    List.Forall₂ (fun payload row => Queued dumps (a.enqueue payload) row) done rows ∧
    (∀ row ∈ rows, s.getOutboxEvent row.eventId = none) ∧
    (rows.map OutboxRecord.eventId).Nodup ∧ t = { s with outbox := s.outbox ++ rows })
    ?_ a.payloads [] [] ⟨.nil, by simp, by simp, by simp⟩
  rintro done rows payload t ⟨hqueued, hfresh, hnodup, rfl⟩
  refine (enqueueOutboxEvent_ensures dumps (a.enqueue payload) _).mono ?_
  rintro row u ⟨hrow, hnew, rfl⟩
  have hnew' : ∀ e ∈ s.outbox ++ rows, e.eventId ≠ row.eventId := by
    simpa only [Tables.getOutboxEvent, List.find?_eq_none, decide_eq_true_eq] using hnew
  refine ⟨List.rel_append hqueued (.cons hrow .nil), ?_, ?_, by simp⟩
  · intro row' hrow'
    rcases List.mem_append.mp hrow' with hrow' | hrow'
    · exact hfresh row' hrow'
    · rw [List.mem_singleton.mp hrow']
      simpa [Tables.getOutboxEvent] using fun e he => hnew' e (List.mem_append_left _ he)
  · rw [List.map_append, List.nodup_append]
    refine ⟨hnodup, by simp, ?_⟩
    intro x hx y hy
    obtain ⟨e, he, rfl⟩ := List.mem_map.mp hx
    simp only [List.map_cons, List.map_nil, List.mem_singleton] at hy
    rw [hy]
    exact hnew' e (List.mem_append_right _ he)

lemma terminalBlock_ensures (dumps : P → Except DbError String) (a : RecordTerminalRun P)
    (s : Tables) :
    Ensures (do
      let run ← transitionRun a.transition
      let rows ← collect (fun payload => enqueueOutboxEvent dumps (a.enqueue payload)) a.payloads
      pure (run, rows)) (fun w t => TerminalCommit dumps a w.2 s t) s := by
  refine ensures_bind ((transitionRun_ensures a.transition s).mono ?_)
  rintro run u ⟨target, now, htarget, hnow, hmoved⟩
  refine ensures_bind ((enqueueAll_ensures dumps a u).mono ?_)
  rintro rows t ⟨hqueued, hfresh, hnodup, rfl⟩
  refine ensures_pure ⟨target, now, u, htarget, hnow, hmoved, hqueued, ?_, hnodup, ?_⟩
  · intro row hrow
    simpa only [Tables.getOutboxEvent, hmoved.outbox_eq] using hfresh row hrow
  · rw [hmoved.outbox_eq]

lemma recordTerminalRun_commits (dumps : P → Except DbError String)
    (a : RecordTerminalRun P) :
    Commits (recordTerminalRun dumps a) fun s t => ∃ rows, TerminalCommit dumps a rows s t := by
  refine commits_bind_right (commits_transaction fun s => ?_) fun _ => ?_
  · exact (terminalBlock_ensures dumps a s).mono fun write _ h => ⟨write.2, h⟩
  · exact (reads_query _).bind fun _ => reads_pure _

/-- A terminal write commits the transition and every event together or leaves the whole database
as it was, wherever it stops; one that returns has committed the events it lists. -/
theorem record_terminal_run_atomic (dumps : P → Except DbError String)
    (a : RecordTerminalRun P) (o : Oracle DbError) (c : Session Tables) (h0 : c.depth = 0) :
    let d := (recordTerminalRun dumps a o c).2
    d.depth = 0 ∧ (d.store = c.store ∨ ∃ rows, TerminalCommit dumps a rows c.store d.store) ∧
      ∀ w, (recordTerminalRun dumps a o c).1 = .ok w →
        TerminalCommit dumps a w.events c.store d.store := by
  intro d
  have hensures : Ensures (recordTerminalRun dumps a)
      (fun w t => TerminalCommit dumps a w.events c.store t) c.store := by
    refine ensures_bind (ensures_transaction ?_)
    refine (terminalBlock_ensures dumps a c.store).mono fun w t h => ?_
    exact ensures_bind (ensures_query (ensures_pure h))
  obtain ⟨hdepth, hstore⟩ := recordTerminalRun_commits dumps a o c h0
  exact ⟨hdepth, hstore, fun w hw => hensures o c rfl w d (Prod.ext hw rfl)⟩

/-- A database with one run in `running`. -/
def oneRunning : Session Tables :=
  performAll [(.quiet, .createRun { specName := "nightly", runId := some "run-a" }),
    (.quiet, .transitionRun { runId := "run-a", newState := .member .running })]
    { store := Tables.empty }

/-- A failing end of that run which owes two events. -/
def failedWrite : RecordTerminalRun String :=
  { runId := "run-a", state := .wire "failed", payloads := ["[1]", "[2]"] }

theorem record_terminal_run_atomic_failed :
    ∃ rows, TerminalCommit .ok failedWrite rows oneRunning.store
      (recordTerminalRun .ok failedWrite .quiet oneRunning).2.store := by
  refine (record_terminal_run_atomic .ok failedWrite .quiet oneRunning rfl).2.1.resolve_left ?_
  intro hsame
  exact absurd (congrArg Tables.controlEpoch hsame) (by decide +kernel)

end AgenticDynamics.Control
