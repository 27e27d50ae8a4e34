import AgenticDynamics.Library.Stamps
import AgenticDynamics.Control.Outbox

/-!
# The zombie sweep

`sweep_zombie_runs` reads the running runs, judges each by its heartbeat and cancels the stale
ones. The runs' own orchestrators keep working meanwhile: their calls land between any two calls
of the sweep. The database itself does not fail here.

The world keeps what every cancelling call of the sweep found and left.
-/

namespace AgenticDynamics.Control

open Python Script

/-! ### The cutoff -/

def defaultStaleAfter : ℤ := 600

def sweepActor : String := "zombie-sweep"

/-- `_staleness_cutoff`: the moment less the window, both of which have a range. -/
def stalenessCutoff (moment : Instant) (staleAfterSeconds : ℤ) : Except DbError String :=
  let days := staleAfterSeconds / 86400
  let cutoff := (moment : ℤ) - staleAfterSeconds * 1000000
  if 999999999 < |days| then
    .error (.external "OverflowError"
      ("days=" ++ toString days ++ "; must have magnitude <= 999999999"))
  else if cutoff < 0 ∨ (maxInstant : ℤ) < cutoff then
    .error (.external "OverflowError" "date value out of range")
  else .ok (isoZ cutoff.toNat)

inductive Liveness
  | live
  | zombie
  | unknown
  deriving DecidableEq

def classifyRunningRun (heartbeat : Option RunHeartbeat) (cutoff : String) : Liveness :=
  match heartbeat with
  | none           => .unknown
  | some heartbeat => if heartbeat.lastSeenAt < cutoff then .zombie else .live

/-! ### The report -/

inductive Finding
  | cancelled (runId fromState reason : String)
  | wouldCancel (runId fromState reason : String)
  | live (runId : String)
  | unknown (runId : String)
  | error (runId text : String)

def Finding.runId : Finding → String
  | cancelled runId _ _   => runId
  | wouldCancel runId _ _ => runId
  | live runId            => runId
  | unknown runId         => runId
  | error runId _         => runId

structure ZombieSweepReport where
  examined : ℕ := 0
  cancelled : List (String × String × String) := []
  wouldCancel : List (String × String × String) := []
  live : List String := []
  unknown : List String := []
  errors : List String := []

def ZombieSweepReport.file (report : ZombieSweepReport) : Finding → ZombieSweepReport
  | .cancelled runId fromState reason =>
    { report with cancelled := report.cancelled ++ [(runId, fromState, reason)] }
  | .wouldCancel runId fromState reason =>
    { report with wouldCancel := report.wouldCancel ++ [(runId, fromState, reason)] }
  | .live runId       => { report with live := report.live ++ [runId] }
  | .unknown runId    => { report with unknown := report.unknown ++ [runId] }
  | .error runId text => { report with errors := report.errors ++ [runId ++ ": " ++ text] }

/-! ### The surroundings -/

/-- A call of an orchestrator, over a connection of its own. -/
inductive OrchestratorCall
  | call (o : Oracle DbError) (c : Call)
  | recordTerminalRun (o : Oracle DbError) (a : RecordTerminalRun String)

def OrchestratorCall.perform (db : Tables) : OrchestratorCall → Tables
  | call o c              => (c.perform o { store := db }).store
  | recordTerminalRun o a => (Control.recordTerminalRun .ok a o { store := db }).2.store

/-- What the orchestrators do between the calls of a sweep: before it reads the heartbeat of a
run, and before it cancels that run. -/
structure Interleaving where
  beforeRead : String → List OrchestratorCall
  beforeCancel : String → List OrchestratorCall

/-- What one cancelling call of the sweep found, and what it left. -/
structure Cancellation where
  runId : String
  before : Tables
  after : Tables

structure SweepWorld where
  tables : Tables
  log : List Cancellation := []

def SweepWorld.interleave (w : SweepWorld) (calls : List OrchestratorCall) : SweepWorld :=
  { w with tables := calls.foldl OrchestratorCall.perform w.tables }

/-! ### The sweep -/

/-- The arguments of a sweep, the strings drawn for it and its handle on the database. -/
structure Sweep where
  staleAfterSeconds : Option ℤ := none
  actor : String := sweepActor
  dryRun : Bool := false
  now : Instant
  draw : ℕ → String := Nat.repr
  readOnly : Bool := false

def Sweep.cutoff (sweep : Sweep) : Except DbError String :=
  stalenessCutoff sweep.now (sweep.staleAfterSeconds.getD defaultStaleAfter)

/-- The errors that `except ControlDBError` catches. -/
def DbError.isControlDbError : DbError → Bool
  | integrity _  => false
  | encoding _   => false
  | external _ _ => false
  | assertion    => false
  | _            => true

/-- `ORDER BY started_at DESC, run_id DESC`. -/
def startedAfter (a b : RunRecord) : Bool :=
  b.startedAt < a.startedAt ∨ (a.startedAt = b.startedAt ∧ b.runId ≤ a.runId)

/-- `runs(state=state)`. -/
def runsIn (state : RunState) (db : Tables) : List RunRecord :=
  (db.runs.filter fun r => r.state = state).mergeSort startedAfter

section Sweeping

variable (rt : Runtime) (sweep : Sweep) (others : Interleaving)

/-- `transition_run(run_id, CANCELLED)`, by the sweep. -/
def cancelRun (runId reason : String) (w : SweepWorld) : Except DbError RunRecord × SweepWorld :=
  let o : Oracle DbError := ⟨fun _ => none, sweep.draw⟩
  let (result, session) :=
    transitionRun { runId, newState := .member .cancelled, reason, actor := sweep.actor } o
      { store := w.tables, readOnly := sweep.readOnly }
  (result, { tables := session.store, log := w.log ++ [⟨runId, w.tables, session.store⟩] })

def zombieReason (heartbeat : Option RunHeartbeat) (note : String) : String :=
  match heartbeat with
  | none           => ""
  | some heartbeat =>
    "zombie run: last heartbeat " ++ heartbeat.lastSeenAt ++ " (beat " ++
      Nat.repr heartbeat.beatCount ++ ") is older than " ++ note

def sweepRun (cutoff note : String) (run : RunRecord) (w : SweepWorld) :
    Except DbError Finding × SweepWorld :=
  let read := w.interleave (others.beforeRead run.runId)
  let heartbeat := read.tables.runHeartbeat run.runId
  let reason := zombieReason heartbeat note
  match classifyRunningRun heartbeat cutoff with
  | .live    => (.ok (.live run.runId), read)
  | .unknown => (.ok (.unknown run.runId), read)
  | .zombie  =>
    if sweep.dryRun then (.ok (.wouldCancel run.runId run.state.value reason), read)
    else
      match cancelRun sweep run.runId reason (read.interleave (others.beforeCancel run.runId)) with
      | (.ok _, w')    => (.ok (.cancelled run.runId run.state.value reason), w')
      | (.error e, w') =>
        if e.isControlDbError then
          (.ok (.error run.runId (e.message fun s => rt.repr (.str s))), w')
        else (.error e, w')

/-- The loop; an exception that leaves a run leaves the sweep. -/
def sweepRuns (cutoff note : String) : List RunRecord → ZombieSweepReport → SweepWorld →
    Except DbError ZombieSweepReport × SweepWorld
  | [], report, w => (.ok report, w)
  | run :: runs, report, w =>
    match sweepRun rt sweep others cutoff note run w with
    | (.error e, w')    => (.error e, w')
    | (.ok finding, w') => sweepRuns cutoff note runs (report.file finding) w'

def sweepZombieRuns (db : Tables) : Except DbError ZombieSweepReport × SweepWorld :=
  match sweep.cutoff with
  | .error e   => (.error e, { tables := db })
  | .ok cutoff =>
    let stale := sweep.staleAfterSeconds.getD defaultStaleAfter
    let note := "stale_after=" ++ toString stale ++ "s (cutoff " ++ cutoff ++ ")"
    let running := runsIn .running db
    sweepRuns rt sweep others cutoff note running { examined := running.length } { tables := db }

end Sweeping

/-! ### The cancelling call -/

lemma ends_orNow {given : Option String} {o : Oracle DbError} {s : Session Tables}
    {Q : String → Session Tables → Prop} {E : DbError → Session Tables → Prop}
    (h : ∀ now t, t.store = s.store → t.depth = s.depth → t.readOnly = s.readOnly → Q now t) :
    Ends (orNow given) o s Q E := by
  simp only [orNow]
  split
  · exact ends_draw.mpr (h _ _ rfl rfl rfl)
  · exact ends_pure.mpr (h _ _ rfl rfl rfl)

lemma updateRuns_of_live {db : Tables} (h : Audited db) {r : RunRecord} {runId : String}
    (hget : db.getRun runId = some r) (hlive : r.isTerminal = false)
    (f : RunRecord → RunRecord) : db.updateRuns runId f =
      .ok { db with runs := db.runs.map fun r => if r.runId = runId then f r else r } := by
  have hnone : ¬ (db.runs.any fun r => r.runId = runId ∧ r.isTerminal) = true := by
    rw [List.any_eq_true]
    rintro ⟨r', hr', hrefused⟩
    simp only [decide_eq_true_eq] at hrefused
    have hsame := h.getRun hr'
    rw [hrefused.1, hget, Option.some.injEq] at hsame
    rw [hsame, hrefused.2] at hlive
    cases hlive
  rw [Tables.updateRuns, if_neg hnone]

lemma getRun_map (db : Tables) (runId : String) {f : RunRecord → RunRecord}
    (hf : ∀ r, (f r).runId = r.runId) (id : String) :
    ({ db with runs := db.runs.map fun r => if r.runId = runId then f r else r } :
      Tables).getRun id = (db.getRun id).map fun r => if r.runId = runId then f r else r := by
  simp only [Tables.getRun, List.find?_map]
  congr 2
  funext r
  simp only [Function.comp_apply]
  split <;> simp [hf]

/-- Why a database that works refuses a transition: the run is not there, or the edge is not. -/
def Refused (a : TransitionRun) (target : RunState) (db : Tables) : Prop :=
  ∀ r, db.getRun a.runId = some r → target ∉ allowedTransitions r.state

lemma transitionBlock_ends {a : TransitionRun} {target : RunState} {now : String}
    {o : Oracle DbError} {s : Session Tables} (hquiet : ∀ n, o.fault n = none)
    (h : Audited s.store) :
    Ends (transitionBlock a target now) o s (fun _ t => Transitioned a target now s.store t.store)
      (fun e _ => e.isControlDbError = true ∧ Refused a target s.store) := by
  refine Ends.of_ensures (transitionBlock_ensures a target now s.store) ?_
  have hfault : ∀ {P : DbError → Prop} n e, o.fault n = some e → P e := by
    intro P n e he
    rw [hquiet n] at he
    cases he
  rw [transitionBlock, ends_bind]
  refine ends_query ?_ (hfault _)
  cases hget : s.store.getRun a.runId with
  | none => exact ends_raise.mpr ⟨rfl, by simp [Refused, hget]⟩
  | some current =>
    simp only
    by_cases hterm : current.isTerminal
    · rw [if_pos hterm]
      refine ends_raise.mpr ⟨rfl, ?_⟩
      intro r hr hallowed
      rw [hget] at hr
      cases hr
      exact not_terminal_of_allowed _ _ hallowed (by simpa [RunRecord.isTerminal] using hterm)
    · rw [if_neg hterm]
      by_cases hallowed : target ∈ allowedTransitions current.state
      · -- none of the three statements can be refused
        rw [if_neg (not_not.mpr hallowed), ends_bind]
        have hrows := updateRuns_of_live h hget (by simpa using hterm)
          (a.apply current target now)
        have hfound := getRun_map s.store a.runId
          (show ∀ r, (a.apply current target now r).runId = r.runId from fun _ => rfl) a.runId
        rw [hget] at hfound
        refine ends_execute_result (fun u hu => ?_) (fun e he => ?_) (hfault _)
        · change s.store.updateRuns a.runId _ = _ at hu
          rw [hrows, Except.ok.injEq] at hu
          rw [ends_bind]
          refine ends_execute_result (fun v _ => ?_) (fun e he => ?_) (hfault _)
          · rw [bumpEpoch, ends_bind]
            refine ends_execute_result (fun x _ => ?_) (fun e he => by cases he) (hfault _)
            exact ends_query trivial (hfault _)
          · simp [← hu, Tables.insertTransition, hfound] at he
        · change s.store.updateRuns a.runId _ = _ at he
          rw [hrows] at he
          cases he
      · rw [if_pos hallowed]
        refine ends_raise.mpr ⟨rfl, ?_⟩
        intro r hr
        rw [hget] at hr
        cases hr
        exact hallowed

lemma Transitioned.getRun_isSome {a : TransitionRun} {target : RunState} {now : String}
    {s t : Tables} (h : Transitioned a target now s t) : (t.getRun a.runId).isSome := by
  obtain ⟨current, hcur, -, rfl⟩ := h
  have hfound := getRun_map s a.runId
    (show ∀ r, (a.apply current target now r).runId = r.runId from fun _ => rfl) a.runId
  rw [hcur] at hfound
  simp only [Tables.getRun] at hfound ⊢
  rw [hfound]
  rfl

lemma transitionRun_ends {a : TransitionRun} {target : RunState} {o : Oracle DbError}
    {s : Session Tables} (hquiet : ∀ n, o.fault n = none)
    (htarget : coerceRunState a.newState = .ok target) (h0 : s.depth = 0) (h : Audited s.store) :
    Ends (transitionRun a) o s
      (fun _ t => s.readOnly = false ∧ ∃ now, Transitioned a target now s.store t.store)
      (fun e t => e.isControlDbError = true ∧ t.store = s.store ∧
        (s.readOnly = true ∨ Refused a target s.store)) := by
  have hfault : ∀ {P : DbError → Prop} n e, o.fault n = some e → P e := by
    intro P n e he
    rw [hquiet n] at he
    cases he
  rw [transitionRun, ends_bind]
  refine ends_requireWritable (fun hro => ?_) (fun hro => ⟨rfl, rfl, .inl hro⟩)
  rw [ends_bind]
  refine ends_lift (fun target' htarget' => ?_) (fun e he => by rw [htarget] at he; cases he)
  obtain rfl : target = target' := by simpa [htarget] using htarget'
  rw [ends_bind]
  refine ends_orNow fun now t hstore hdepth hreadOnly => ?_
  rw [ends_bind]
  refine ends_transaction (hdepth.trans h0) (fun hro' => ?_) (hfault _) (fun _ => ?_)
  · rw [hreadOnly, hro] at hro'
    cases hro'
  · refine (transitionBlock_ends hquiet (by rwa [← hstore] at h)).mono ?_ ?_
    · intro _ u hmoved
      change Transitioned a target now t.store u.store at hmoved
      rw [hstore] at hmoved
      rw [reread, ends_bind]
      refine ends_query ?_ (hfault _)
      obtain ⟨row, hrow⟩ := Option.isSome_iff_exists.mp hmoved.getRun_isSome
      simp only [hrow]
      exact ends_pure.mpr ⟨hro, now, hmoved⟩
    · rintro e u ⟨hown, hrefused⟩
      change Refused a target t.store at hrefused
      rw [hstore] at hrefused
      exact ⟨hown, hstore, .inr hrefused⟩

/-! ### One sweep -/

section Safety

variable (rt : Runtime) (sweep : Sweep) (others : Interleaving) {w : SweepWorld}

lemma OrchestratorCall.perform_keeps {P : Tables → Prop} (hstep : ∀ s t, P s → Effect s t → P t)
    (houtbox : ∀ s rows, P s → P { s with outbox := rows }) {db : Tables} (h : P db)
    (call : OrchestratorCall) : P (call.perform db) := by
  cases call with
  | call o c =>
    obtain ⟨-, hsame | heffect⟩ := c.perform_effect o { store := db } rfl
    · rwa [perform, hsame]
    · exact hstep _ _ h heffect
  | recordTerminalRun o a =>
    obtain ⟨-, hsame | ⟨rows, target, now, u, -, -, hmoved, -, -, -, heq⟩⟩ :=
      recordTerminalRun_commits .ok a o { store := db } rfl
    · rwa [perform, hsame]
    · rw [perform, heq]
      exact houtbox u _ (hstep _ _ h (.moved a.transition target now hmoved))

lemma audited_perform {db : Tables} (h : Audited db) (call : OrchestratorCall) :
    Audited (call.perform db) :=
  call.perform_keeps (fun _ _ hs he => hs.step he.runStep)
    (fun _ _ hs => ⟨hs.keys, hs.owned, hs.ledger⟩) h

lemma audited_performAll {db : Tables} (h : Audited db) (calls : List OrchestratorCall) :
    Audited (calls.foldl OrchestratorCall.perform db) :=
  List.foldlRecOn calls _ h fun _ hs call _ => audited_perform hs call

/-- What a cancelling call did: it moved a run that could be cancelled, or nothing. -/
def Attempted (sweep : Sweep) (c : Cancellation) : Prop :=
  c.after ≠ c.before ∧ sweep.readOnly = false ∧
      (∃ r, c.before.getRun c.runId = some r ∧ r.state ∈ preMerge) ∨
    c.after = c.before ∧
      (sweep.readOnly = true ∨ ∀ r, c.before.getRun c.runId = some r → r.state ∉ preMerge)

lemma cancelled_allowed (s : RunState) : .cancelled ∈ allowedTransitions s ↔ s ∈ preMerge := by
  cases s <;> decide

lemma cancelRun_spec (h : Audited w.tables) (runId reason : String) :
    (∀ e, (cancelRun sweep runId reason w).1 = .error e → e.isControlDbError = true) ∧
      Audited (cancelRun sweep runId reason w).2.tables ∧
      ∃ c, (cancelRun sweep runId reason w).2.log = w.log ++ [c] ∧ c.runId = runId ∧
        Attempted sweep c := by
  let a : TransitionRun :=
    { runId, newState := .member .cancelled, reason, actor := sweep.actor }
  have hends := transitionRun_ends (a := a) (o := ⟨fun _ => none, sweep.draw⟩)
    (s := { store := w.tables, readOnly := sweep.readOnly }) (fun _ => rfl) rfl rfl h
  rcases hrun : transitionRun a ⟨fun _ => none, sweep.draw⟩
    { store := w.tables, readOnly := sweep.readOnly } with ⟨result, t⟩
  have hcancel : cancelRun sweep runId reason w =
      (result, { tables := t.store, log := w.log ++ [⟨runId, w.tables, t.store⟩] }) := by
    simp only [cancelRun]
    rw [hrun]
  rw [hcancel]
  cases result with
  | ok run =>
    obtain ⟨hro, now, hmoved⟩ := hends.of_ok hrun
    refine ⟨by simp, h.step hmoved.runStep, _, rfl, rfl, .inl ⟨?_, hro, ?_⟩⟩
    · -- a transition bumps the epoch
      obtain ⟨current, -, -, heq⟩ := hmoved
      intro hsame
      have hepoch := congrArg Tables.controlEpoch (heq.symm.trans hsame)
      simp at hepoch
    · obtain ⟨current, hcur, hallowed, -⟩ := hmoved
      exact ⟨current, hcur, (cancelled_allowed _).mp hallowed⟩
  | error e =>
    obtain ⟨hown, hstore, hwhy⟩ := hends.of_error hrun
    change t.store = w.tables at hstore
    refine ⟨by simpa using hown, by rwa [hstore], _, rfl, rfl, .inr ⟨hstore, ?_⟩⟩
    refine hwhy.imp id fun hrefused r hr => ?_
    rw [← cancelled_allowed]
    exact hrefused r hr

lemma sweepRun_spec (h : Audited w.tables) (cutoff note : String) (run : RunRecord) :
    ∃ finding w', sweepRun rt sweep others cutoff note run w = (.ok finding, w') ∧
      finding.runId = run.runId ∧ Audited w'.tables ∧
      (w'.log = w.log ∨ ∃ c, w'.log = w.log ++ [c] ∧ c.runId = run.runId ∧
        Attempted sweep c) := by
  have hread : Audited (w.interleave (others.beforeRead run.runId)).tables :=
    audited_performAll h _
  have hcancel := audited_performAll hread (others.beforeCancel run.runId)
  unfold sweepRun
  simp only
  split
  · exact ⟨_, _, rfl, rfl, hread, .inl rfl⟩
  · exact ⟨_, _, rfl, rfl, hread, .inl rfl⟩
  · by_cases hdry : sweep.dryRun
    · rw [if_pos hdry]
      exact ⟨_, _, rfl, rfl, hread, .inl rfl⟩
    · rw [if_neg hdry]
      generalize zombieReason _ note = reason
      obtain ⟨hown, haudited, c, hlog, hid, hattempted⟩ := cancelRun_spec sweep
        (w := (w.interleave (others.beforeRead run.runId)).interleave
          (others.beforeCancel run.runId)) hcancel run.runId reason
      rcases hrun : cancelRun sweep run.runId reason ((w.interleave
        (others.beforeRead run.runId)).interleave (others.beforeCancel run.runId)) with ⟨result, w'⟩
      rw [hrun] at hown haudited hlog
      cases result with
      | ok moved => exact ⟨_, _, rfl, rfl, haudited, .inr ⟨c, hlog, hid, hattempted⟩⟩
      | error e =>
        simp only [hown e rfl, if_true]
        exact ⟨_, _, rfl, rfl, haudited, .inr ⟨c, hlog, hid, hattempted⟩⟩

lemma sweepRuns_spec (cutoff note : String) (runs : List RunRecord) (report : ZombieSweepReport)
    (h : Audited w.tables) (hlog : ∀ c ∈ w.log, Attempted sweep c) :
    ∃ findings w', sweepRuns rt sweep others cutoff note runs report w =
        (.ok (findings.foldl ZombieSweepReport.file report), w') ∧
      List.Forall₂ (fun run finding => Finding.runId finding = run.runId) runs findings ∧
      ∀ c ∈ w'.log, Attempted sweep c := by
  induction runs generalizing report w with
  | nil => exact ⟨[], w, rfl, .nil, hlog⟩
  | cons run runs ih =>
    obtain ⟨finding, w', hrun, hid, haudited, hnew⟩ :=
      sweepRun_spec rt sweep others h cutoff note run
    have hlog' : ∀ c ∈ w'.log, Attempted sweep c := by
      rcases hnew with hsame | ⟨c, happ, -, hattempted⟩
      · rwa [hsame]
      · intro c' hc'
        rw [happ, List.mem_append, List.mem_singleton] at hc'
        rcases hc' with hc' | rfl
        · exact hlog c' hc'
        · exact hattempted
    obtain ⟨findings, w'', hrest, hids, hlog''⟩ := ih (report.file finding) haudited hlog'
    refine ⟨finding :: findings, w'', ?_, .cons hid hids, hlog''⟩
    rw [sweepRuns, hrun]
    exact hrest

end Safety

/-- The run is still running and its heartbeat is still stale. -/
def StillStale (cutoff runId : String) (db : Tables) : Prop :=
  ∃ r heartbeat, db.getRun runId = some r ∧ r.state = .running ∧
    db.runHeartbeat runId = some heartbeat ∧ heartbeat.lastSeenAt < cutoff

/-- What a sweep promises: it cancels only runs that are still running and stale when the
transition commits, it leaves every other run as it is, and it files every run it examined
exactly once. A sweep whose cutoff is no date does nothing. -/
structure SweepSafe (sweep : Sweep) (db : Tables)
    (result : Except DbError ZombieSweepReport × SweepWorld) : Prop where
  stale : ∀ cutoff, sweep.cutoff = .ok cutoff → ∀ c ∈ result.2.log, c.after ≠ c.before →
    StillStale cutoff c.runId c.before
  untouched : ∀ c ∈ result.2.log, ∀ r, c.before.getRun c.runId = some r → r.state ≠ .running →
    c.after = c.before
  accounted : ∀ cutoff, sweep.cutoff = .ok cutoff →
    ((runsIn .running db).map RunRecord.runId).Nodup ∧ ∃ findings,
      List.Forall₂ (fun run finding => Finding.runId finding = run.runId) (runsIn .running db)
        findings ∧
      result.1 = .ok (findings.foldl ZombieSweepReport.file
        { examined := (runsIn .running db).length })
  refused : ∀ e, sweep.cutoff = .error e → result = (.error e, ⟨db, []⟩)

/-- No orchestrator has moved the run to another state that may be cancelled, nor renewed its
heartbeat. -/
def Undisturbed (cutoff runId : String) (db : Tables) : Prop :=
  ∀ r, db.getRun runId = some r → r.state ∉ preMerge.erase .running ∧
    (r.state = .running → ∃ heartbeat, db.runHeartbeat runId = some heartbeat ∧
      heartbeat.lastSeenAt < cutoff)

lemma Attempted.undisturbed_iff {sweep : Sweep} {c : Cancellation} (h : Attempted sweep c)
    (hro : sweep.readOnly = false) (cutoff : String) : Undisturbed cutoff c.runId c.before ↔
      (c.after ≠ c.before → StillStale cutoff c.runId c.before) ∧
        ∀ r, c.before.getRun c.runId = some r → r.state ≠ .running → c.after = c.before := by
  have hcancellable : ∀ r, c.before.getRun c.runId = some r →
      (c.after ≠ c.before ↔ r.state ∈ preMerge) := by
    intro r hr
    rcases h with ⟨hmoved, -, r', hr', hpre⟩ | ⟨hsame, hwhy⟩
    · rw [hr] at hr'
      cases hr'
      simp [hmoved, hpre]
    · rcases hwhy with hwhy | hwhy
      · rw [hro] at hwhy
        cases hwhy
      · simp [hsame, hwhy r hr]
  constructor
  · intro hun
    constructor
    · intro hmoved
      obtain ⟨-, -, r, hr, hpre⟩ | ⟨hsame, -⟩ := h
      · obtain ⟨hother, hstale⟩ := hun r hr
        have hrunning : r.state = .running := by
          by_contra hne
          exact hother (Finset.mem_erase.mpr ⟨hne, hpre⟩)
        obtain ⟨heartbeat, hget, hlt⟩ := hstale hrunning
        exact ⟨r, heartbeat, hr, hrunning, hget, hlt⟩
      · exact absurd hsame hmoved
    · intro r hr hne
      by_contra hmoved
      exact (hun r hr).1 (Finset.mem_erase.mpr ⟨hne, (hcancellable r hr).mp hmoved⟩)
  · rintro ⟨hstale, huntouched⟩ r hr
    constructor
    · intro hother
      obtain ⟨hne, hpre⟩ := Finset.mem_erase.mp hother
      exact (hcancellable r hr).mpr hpre (huntouched r hr hne)
    · intro hrunning
      have hmoved := (hcancellable r hr).mpr (by rw [hrunning]; decide)
      obtain ⟨_, heartbeat, -, -, hget, hlt⟩ := hstale hmoved
      exact ⟨heartbeat, hget, hlt⟩

/-- A run is created, started, and beats at midnight. -/
def beatAtMidnight : List OrchestratorCall :=
  [.call .quiet (.createRun { specName := "nightly", runId := some "run-a" }),
    .call .quiet (.transitionRun { runId := "run-a", newState := .member .running }),
    .call .quiet (.recordRunHeartbeat
      { runId := "run-a", stamp := some "2026-01-01T00:00:00Z" })]

/-- Its orchestrator pauses it for approval after the sweep has read the heartbeat. -/
def pausedMeanwhile : Interleaving :=
  { beforeRead := fun _ => []
    beforeCancel := fun runId =>
      [.call .quiet (.transitionRun { runId, newState := .member .awaitingApproval })] }

/-- The interpreter of a sweep in which no error is printed. -/
def sweepRuntime : Runtime :=
  { loads := fun _ => .ok .null, repr := fun _ => "", upper := id, lower := id }

def lateSweep : Sweep := { now := 63902826000000000 }

/-- The due row and the stale run are selected by the instants exactly when these are not in one
second of which one of them is the beginning. -/
theorem stamps_compare_as_instants {a b : ℕ} (ha : a ≤ maxInstant) (hb : b ≤ maxInstant) :
    ((∀ row : OutboxRecord, row.status = .pending → row.nextRetryAt = isoZ a →
        (isDue (isoZ b) row ↔ a ≤ b)) ∧
      ∀ heartbeat : RunHeartbeat, heartbeat.lastSeenAt = isoZ a →
        (classifyRunningRun (some heartbeat) (isoZ b) = .zombie ↔ a < b)) ↔
      ¬ (a / 1000000 = b / 1000000 ∧
        (a % 1000000 = 0 ∧ b % 1000000 ≠ 0 ∨ a % 1000000 ≠ 0 ∧ b % 1000000 = 0)) := by
  have hdue : ∀ row : OutboxRecord, row.status = .pending → row.nextRetryAt = isoZ a →
      (isDue (isoZ b) row ↔ ¬ isoZ b < isoZ a) := by
    intro row hstatus hstamp
    simp only [isDue, hstatus, hstamp, true_and, decide_eq_true_eq]
    exact not_lt.symm
  have hstale : ∀ heartbeat : RunHeartbeat, heartbeat.lastSeenAt = isoZ a →
      (classifyRunningRun (some heartbeat) (isoZ b) = .zombie ↔ isoZ a < isoZ b) := by
    intro heartbeat hstamp
    simp [classifyRunningRun, hstamp]
  have hlt := isoZ_lt ha hb
  have hgt := isoZ_lt hb ha
  constructor
  · rintro ⟨hdueInstants, -⟩ hsame
    let row : OutboxRecord :=
      { eventId := "", runId := "", payloadJson := "", status := .pending, attempts := 0
        nextRetryAt := isoZ a, createdAt := "" }
    have hinstants := (hdue row rfl rfl).symm.trans (hdueInstants row rfl rfl)
    rw [hgt] at hinstants
    omega
  · intro hapart
    refine ⟨fun row hstatus hstamp => ?_, fun heartbeat hstamp => ?_⟩
    · rw [hdue row hstatus hstamp, hgt]
      omega
    · rw [hstale heartbeat hstamp, hlt]
      omega

theorem stamps_compare_as_instants_apart :
    (∀ row : OutboxRecord, row.status = .pending → row.nextRetryAt = isoZ 63902822400250000 →
        (isDue (isoZ 63902822401000000) row ↔ 63902822400250000 ≤ 63902822401000000)) ∧
      ∀ heartbeat : RunHeartbeat, heartbeat.lastSeenAt = isoZ 63902822400250000 →
        (classifyRunningRun (some heartbeat) (isoZ 63902822401000000) = .zombie ↔
          63902822400250000 < 63902822401000000) :=
  (stamps_compare_as_instants (by decide) (by decide)).mpr (by decide)

/-- A retry due at midnight is not due a quarter of a second later, and a heartbeat of midnight is
not older than a cutoff a quarter of a second later. -/
theorem midnight_is_late :
    isDue (isoZ 63902822400250000)
        { eventId := "evt-a", runId := "run-a", payloadJson := "[]", status := .pending
          attempts := 1, nextRetryAt := isoZ 63902822400000000, createdAt := "" } = false ∧
      classifyRunningRun (some ⟨"run-a", isoZ 63902822400000000, 1, "orchestrator"⟩)
        (isoZ 63902822400250000) = .live := by
  decide +kernel

end AgenticDynamics.Control
