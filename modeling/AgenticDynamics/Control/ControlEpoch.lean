import AgenticDynamics.Library.Metered
import AgenticDynamics.Control.ZombieSweep
import AgenticDynamics.Control.Watermarks

/-!
# The control epoch

Four methods bump the epoch, each as the last statement of its transaction: the creation and the
transition of a run, the start and the end of an attempt. Whatever is called, however the calls
are nested in transactions and whichever refusals the code around them survives, the epoch counts
the calls of these four that were committed.
-/

namespace AgenticDynamics.Control

open Python Script

/-! ### Operations -/

/-- The errors with which SQLite itself fails a statement. -/
def DbError.isFault : DbError → Bool
  | .external typeName _ => typeName = "OperationalError" ∨ typeName = "DatabaseError"
  | _                    => false

/-- An environment in which only SQLite fails statements. -/
structure SqliteOracle extends Oracle DbError where
  faults : ∀ n e, fault n = some e → e.isFault = true

/-- The database with the tables of its other methods, and the number of state-changing calls that
were committed, which a rollback takes back with the rest. -/
structure ControlStore (R : Type) where
  tables : Tables := Tables.empty
  watermarks : WatermarkTable := []
  others : R
  committed : ℕ := 0

namespace ControlStore

variable {R : Type}

def epoch (store : ControlStore R) : ℕ := store.tables.controlEpoch

def setTables (t : Tables) (store : ControlStore R) : ControlStore R := { store with tables := t }

def setWatermarks (w : WatermarkTable) (store : ControlStore R) : ControlStore R :=
  { store with watermarks := w }

end ControlStore

/-- What code does with an open `ControlDB`: it calls methods, one after another, inside
`with db.transaction()` or inside a `try` that survives what the methods refuse. -/
inductive Operation (R P : Type)
  | call (c : Call)
  | enqueueOutboxEvent (a : EnqueueOutboxEvent P)
  | markOutbox (eventId : String) (status : OutboxStatus)
      (nextRetryAt deliveredAt lastError : Option String)
  | recordWatermark (a : RecordWatermark)
  /-- A method that writes none but the other tables, after looking where it likes. -/
  | record (write : ControlStore R → Except DbError R)
  | read
  | seq (first next : Operation R P)
  | block (body : Operation R P)
  | guarded (body : Operation R P)

def Call.changesState : Call → Bool
  | createRun _          => true
  | transitionRun _      => true
  | updateRun _          => false
  | startAttempt _       => true
  | finishAttempt _      => true
  | recordRunHeartbeat _ => false

def Call.script : Call → DbScript Unit
  | createRun a          => Control.createRun a >>= fun _ => pure ()
  | transitionRun a      => Control.transitionRun a >>= fun _ => pure ()
  | updateRun a          => Control.updateRun a >>= fun _ => pure ()
  | startAttempt a       => Control.startAttempt a >>= fun _ => pure ()
  | finishAttempt a      => Control.finishAttempt a >>= fun _ => pure ()
  | recordRunHeartbeat a => Control.recordRunHeartbeat a >>= fun _ => pure ()

section Run

variable {R P : Type}

/-- A call, and whether it counts: it returned, or it raised outside any transaction after its own
was committed. -/
def Call.counted (c : Call) : Script DbError (ControlStore R) Unit := fun o s =>
  let (r, t) := focus ControlStore.tables ControlStore.setTables c.script o s
  let done := r.isOk ∨ s.depth = 0 ∧ t.store.tables ≠ s.store.tables
  (r, if c.changesState ∧ done then
    t.withStore { t.store with committed := t.store.committed + 1 } else t)

variable (dumps : P → Except DbError String)

def Operation.run : Operation R P → Script DbError (ControlStore R) Unit
  | call c                          => c.counted
  | enqueueOutboxEvent a            =>
    focus ControlStore.tables ControlStore.setTables
      (Control.enqueueOutboxEvent dumps a >>= fun _ => pure ())
  | markOutbox eventId status nextRetryAt deliveredAt lastError =>
    focus ControlStore.tables ControlStore.setTables (do
      requireWritable .readOnlyControlDB
      transaction .readOnlyControlDB
        (execute (updateOutbox eventId status nextRetryAt deliveredAt lastError))
      let _ ← reread (Tables.getOutboxEvent eventId))
  | recordWatermark a               =>
    focus ControlStore.watermarks ControlStore.setWatermarks
      (Control.recordWatermark a >>= fun _ => pure ())
  | record write                    => do
    requireWritable .readOnlyControlDB
    transaction .readOnlyControlDB
      (execute fun store => (write store).map fun others => { store with others := others })
  | read                            => query fun _ => ()
  | seq first next                  => do
    first.run
    next.run
  | block body                      => transaction .readOnlyControlDB body.run
  | guarded body                    =>
    caught (fun e => if e.isFault then none else some e) body.run >>= fun _ => pure ()

end Run

/-! ### What the methods do to the epoch -/

section Methods

variable {n : ℕ}

lemma reread_still {α : Type} {get : Tables → Option α} {o : Oracle DbError} {s : Session Tables}
    (h : (get s.store).isSome) : Ends (reread get) o s
      (fun _ t => t.depth = s.depth ∧ t.store.controlEpoch = s.store.controlEpoch)
      (fun e t => t.depth = s.depth ∧ Faulted o e) := by
  obtain ⟨row, hrow⟩ := Option.isSome_iff_exists.mp h
  rw [reread, ends_bind]
  refine ends_query ?_ fun e he => ⟨rfl, s.ticks, he⟩
  rw [hrow]
  exact ends_pure.mpr ⟨rfl, rfl⟩

lemma bumpEpoch_adds : Adds Tables.controlEpoch 1 bumpEpoch := by
  refine (adds_execute fun s t h => ?_).bind_right (P := fun _ _ => True)
    (fun s o c _ _ _ _ => trivial) fun _ o s _ => ends_query ⟨rfl, rfl⟩ fun e he => ⟨rfl, _, he⟩
  cases h
  rfl

lemma insertRun_epoch {r : RunRecord} {s t : Tables} (h : s.insertRun r = .ok t) :
    t.controlEpoch = s.controlEpoch ∧ (t.getRun r.runId).isSome := by
  rw [Tables.insertRun] at h
  split_ifs at h
  cases h
  refine ⟨rfl, ?_⟩
  rw [Tables.getRun, List.find?_isSome]
  exact ⟨r, List.mem_append_right _ (List.mem_singleton.mpr rfl), decide_eq_true rfl⟩

lemma insertTransition_epoch {row : StateTransition} {s t : Tables}
    (h : s.insertTransition row = .ok t) : t.controlEpoch = s.controlEpoch := by
  rw [Tables.insertTransition] at h
  split_ifs at h
  cases h
  rfl

lemma updateRuns_epoch {runId : String} {f : RunRecord → RunRecord} {s t : Tables}
    (h : s.updateRuns runId f = .ok t) : t.controlEpoch = s.controlEpoch := by
  rw [Tables.updateRuns] at h
  split_ifs at h
  cases h
  rfl

lemma createRun_moves (a : CreateRun) : Moves Tables.controlEpoch 1 (createRun a) := by
  refine Moves.bind_left (reads_requireWritable _) fun _ => ?_
  refine Moves.bind_left (reads_lift _) fun spec => ?_
  refine Moves.bind_left (reads_lift _) fun initial => ?_
  refine Moves.bind_left (reads_lift _) fun _ => ?_
  refine Moves.bind_left (reads_orNewId _ _) fun rid => ?_
  refine Moves.bind_left (reads_orNow _) fun now => ?_
  refine Moves.bind_left (reads_resolveFamily _ _) fun family => ?_
  refine Moves.bind_right (P := fun _ t => (t.getRun rid).isSome) (Adds.moves ?_)
    (fun s => ensures_transaction ?_) (fun _ => reads_reread _) fun _ o s hrun => reread_still hrun
  · refine (adds_execute fun s t h => (insertRun_epoch h).1).bind_left fun _ => ?_
    exact (adds_execute fun s t h => insertTransition_epoch h).bind_left fun _ => bumpEpoch_adds
  · refine ensures_bind (ensures_execute fun t ht => ?_)
    exact ensures_bind (ensures_insertTransition (ensures_bumpEpoch (insertRun_epoch ht).2))

lemma transitionBlock_adds (a : TransitionRun) (target : RunState) (now : String) :
    Adds Tables.controlEpoch 1 (transitionBlock a target now) := by
  refine (reads_query _).adds.bind_left fun current => ?_
  cases current with
  | none => exact adds_raise _
  | some current =>
    dsimp only
    split_ifs
    · exact adds_raise _
    · refine (adds_execute fun s t h => updateRuns_epoch h).bind_left fun _ => ?_
      exact (adds_execute fun s t h => insertTransition_epoch h).bind_left fun _ => bumpEpoch_adds
    · exact adds_raise _

lemma transitionRun_moves (a : TransitionRun) : Moves Tables.controlEpoch 1 (transitionRun a) := by
  refine Moves.bind_left (reads_requireWritable _) fun _ => ?_
  refine Moves.bind_left (reads_lift _) fun target => ?_
  refine Moves.bind_left (reads_orNow _) fun now => ?_
  refine Moves.bind_right (P := fun _ t => (t.getRun a.runId).isSome)
    (Adds.moves (transitionBlock_adds a target now)) (fun s => ensures_transaction ?_)
    (fun _ => reads_reread _) fun _ o s hrun => reread_still hrun
  exact (transitionBlock_ensures a target now s).mono fun _ _ h => h.getRun_isSome

lemma updateRun_moves (a : UpdateRun) : Moves Tables.controlEpoch 0 (updateRun a) := by
  refine Moves.bind_left (reads_requireWritable _) fun _ => ?_
  refine Moves.bind_reads (Adds.moves ?_) fun _ => reads_reread _
  refine (reads_query _).adds.bind_left fun current => ?_
  cases current with
  | none => exact adds_raise _
  | some current =>
    dsimp only
    split_ifs
    · exact adds_raise _
    · exact adds_execute fun s t h => updateRuns_epoch h

lemma recordRunHeartbeat_moves (a : RecordRunHeartbeat) :
    Moves Tables.controlEpoch 0 (recordRunHeartbeat a) := by
  refine Moves.bind_left (reads_requireWritable _) fun _ => ?_
  refine Moves.bind_left (reads_query _) fun run => ?_
  cases run with
  | none => exact moves_raise _
  | some run =>
    refine Moves.bind_left (reads_orNow _) fun stamp => ?_
    refine Moves.bind_reads (Adds.moves ?_) fun _ => reads_reread _
    refine adds_execute fun s t h => ?_
    rw [Tables.upsertHeartbeat] at h
    split_ifs at h <;> cases h <;> rfl

lemma insertAttempt_epoch {row : StepAttemptRecord} {s t : Tables}
    (h : s.insertAttempt row = .ok t) :
    t.controlEpoch = s.controlEpoch ∧ (t.getAttempt row.attemptId).isSome := by
  rw [Tables.insertAttempt] at h
  split_ifs at h
  cases h
  refine ⟨rfl, ?_⟩
  rw [Tables.getAttempt, List.find?_isSome]
  exact ⟨row, List.mem_append_right _ (List.mem_singleton.mpr rfl), decide_eq_true rfl⟩

lemma updateAttempts_epoch {attemptId : String} {f : StepAttemptRecord → StepAttemptRecord}
    {s t : Tables} (h : s.updateAttempts attemptId f = .ok t)
    (hf : ∀ row, (f row).attemptId = row.attemptId) :
    t.controlEpoch = s.controlEpoch ∧
      ((s.getAttempt attemptId).isSome → (t.getAttempt attemptId).isSome) := by
  rw [Tables.updateAttempts] at h
  split_ifs at h
  cases h
  refine ⟨rfl, fun hsome => ?_⟩
  rw [Tables.getAttempt, List.find?_isSome] at hsome ⊢
  obtain ⟨row, hrow, hid⟩ := hsome
  rw [decide_eq_true_eq] at hid
  exact ⟨_, List.mem_map_of_mem hrow, by simp [hid, hf]⟩

lemma attemptRow_adds (a : StartAttempt) (step : String) (attemptState : AttemptState)
    (number : ℤ) :
    let row : DbScript String := do
      let aid ← orNewId a.attemptId "att"
      let startedAt ← orNow a.startedAt
      execute (Tables.insertAttempt
        { attemptId := aid, runId := a.runId, stepId := step, attemptNo := number
          model := a.model, state := attemptState, startedAt := startedAt, endedAt := ""
          tokens := 0, costUsd := .finite 0, exitCode := none, error := "" })
      let _ ← bumpEpoch
      pure aid
    Adds Tables.controlEpoch 1 row ∧ ∀ s, Ensures row (fun aid t => (t.getAttempt aid).isSome) s := by
  refine ⟨?_, fun s => ?_⟩
  · refine (reads_orNewId _ _).adds.bind_left fun aid => ?_
    refine (reads_orNow _).adds.bind_left fun startedAt => ?_
    refine (adds_execute fun s t h => (insertAttempt_epoch h).1).bind_left fun _ => ?_
    exact bumpEpoch_adds.bind_right (P := fun _ _ => True) (fun s o c _ _ _ _ => trivial)
      fun _ o s _ => ends_pure.mpr ⟨rfl, rfl⟩
  · refine ensures_bind (ensures_orNewId fun aid => ?_)
    refine ensures_bind (ensures_orNow fun startedAt _ => ?_)
    refine ensures_bind (ensures_execute fun t ht => ?_)
    exact ensures_bind (ensures_bumpEpoch (ensures_pure (insertAttempt_epoch ht).2))

lemma startAttempt_moves (a : StartAttempt) : Moves Tables.controlEpoch 1 (startAttempt a) := by
  refine Moves.bind_left (reads_requireWritable _) fun _ => ?_
  refine Moves.bind_left (reads_lift _) fun step => ?_
  refine Moves.bind_left (reads_lift _) fun attemptState => ?_
  have hrow := attemptRow_adds a step attemptState
  refine Moves.bind_right (P := fun aid t => (t.getAttempt aid).isSome) (Adds.moves ?_)
    (fun s => ensures_transaction ?_) (fun _ => reads_reread _) fun aid o s hattempt => reread_still hattempt
  · refine (reads_query _).adds.bind_left fun run => ?_
    cases run with
    | none => exact adds_raise _
    | some run =>
      cases a.attemptNo with
      | none => exact (reads_query _).adds.bind_left fun number => (hrow number).1
      | some n => exact (reads_pure _).adds.bind_left fun number => (hrow number).1
  · refine ensures_bind (ensures_query ?_)
    cases s.getRun a.runId with
    | none => exact ensures_raise _
    | some run =>
      cases a.attemptNo with
      | none => exact ensures_bind (ensures_query ((hrow _).2 s))
      | some n => exact ensures_bind (ensures_pure ((hrow n).2 s))

lemma finishAttempt_moves (a : FinishAttempt) : Moves Tables.controlEpoch 1 (finishAttempt a) := by
  refine Moves.bind_left (reads_requireWritable _) fun _ => ?_
  refine Moves.bind_left (reads_lift _) fun final => ?_
  refine Moves.bind_right (P := fun _ t => (t.getAttempt a.attemptId).isSome) (Adds.moves ?_)
    (fun s => ensures_transaction ?_) (fun _ => reads_reread _) fun _ o s hattempt => reread_still hattempt
  · refine (reads_query _).adds.bind_left fun current => ?_
    cases current with
    | none => exact adds_raise _
    | some current =>
      dsimp only
      split_ifs
      · exact adds_raise _
      · refine (reads_orNow _).adds.bind_left fun endedAt => ?_
        refine (adds_execute fun s t h => ?_).bind_left fun _ => bumpEpoch_adds
        exact (updateAttempts_epoch h fun _ => rfl).1
  · refine ensures_bind (ensures_query ?_)
    cases hget : s.getAttempt a.attemptId with
    | none => exact ensures_raise _
    | some current =>
      dsimp only
      split_ifs
      · exact ensures_raise _
      · refine ensures_bind (ensures_orNow fun endedAt _ => ?_)
        refine ensures_bind (ensures_execute fun t ht => ensures_bumpEpoch ?_)
        exact (updateAttempts_epoch ht fun _ => rfl).2 (by rw [hget]; rfl)

/-- By how much a committed call moves the epoch. -/
def Call.weight (c : Call) : ℕ := if c.changesState then 1 else 0

lemma Call.script_moves (c : Call) : Moves Tables.controlEpoch c.weight c.script := by
  cases c with
  | createRun a => exact (createRun_moves a).discard
  | transitionRun a => exact (transitionRun_moves a).discard
  | updateRun a => exact (updateRun_moves a).discard
  | startAttempt a => exact (startAttempt_moves a).discard
  | finishAttempt a => exact (finishAttempt_moves a).discard
  | recordRunHeartbeat a => exact (recordRunHeartbeat_moves a).discard

lemma enqueueOutboxEvent_moves {P : Type} (dumps : P → Except DbError String)
    (a : EnqueueOutboxEvent P) : Moves Tables.controlEpoch 0 (enqueueOutboxEvent dumps a) := by
  refine Moves.bind_left (reads_requireWritable _) fun _ => ?_
  refine Moves.bind_left (reads_orNewId _ _) fun eid => ?_
  refine Moves.bind_left (reads_lift _) fun body => ?_
  refine Moves.bind_reads (Adds.moves ?_) fun _ => reads_reread _
  refine (reads_query _).adds.bind_left fun run => ?_
  cases run with
  | none => exact adds_raise _
  | some run =>
    refine (reads_orNow _).adds.bind_left fun createdAt => adds_execute fun s t h => ?_
    rw [Tables.insertOutbox] at h
    split_ifs at h
    cases h
    rfl

lemma updateOutbox_epoch {eventId : String} {status : OutboxStatus}
    {nextRetryAt deliveredAt lastError : Option String} {s t : Tables}
    (h : updateOutbox eventId status nextRetryAt deliveredAt lastError s = .ok t) :
    t.controlEpoch = s.controlEpoch := by
  rw [updateOutbox] at h
  split at h
  · cases h
  · split_ifs at h
    cases h
    rfl

lemma recordWatermark_moves (a : RecordWatermark) :
    Moves (fun _ => 0) 0 (recordWatermark a) := by
  refine Moves.bind_left (reads_requireWritable _) fun _ => ?_
  refine Moves.bind_left (reads_lift _) fun name => ?_
  have hstamp : Reads (a.successStamp (σ := WatermarkTable)) := by
    rw [RecordWatermark.successStamp]
    split
    · exact reads_pure _
    · split_ifs
      · exact reads_draw
      · exact reads_pure _
  refine Moves.bind_left hstamp fun stamp => ?_
  refine Moves.bind_reads (Adds.moves ?_) fun _ => (reads_query _).bind fun w => ?_
  · exact (reads_query _).adds.bind_left fun existing => adds_execute fun _ _ _ => rfl
  · cases w with
    | some w => exact reads_pure w
    | none => exact reads_raise _

end Methods

/-! ### What operations do to it -/

section Operations

variable {R P : Type} {dumps : P → Except DbError String}

/-- The epoch moved as far as the number of committed calls. -/
def Even (s t : ControlStore R) : Prop := t.epoch + s.committed = s.epoch + t.committed

lemma Even.of_same {s t : ControlStore R} (hepoch : t.epoch = s.epoch)
    (hcommitted : t.committed = s.committed) : Even s t := by
  rw [Even, hepoch, hcommitted]

lemma Even.refl (s : ControlStore R) : Even s s := rfl

lemma Even.trans {s t u : ControlStore R} (hst : Even s t) (htu : Even t u) : Even s u := by
  unfold Even at *
  omega

/-- An operation keeps the epoch even with the committed calls, unless SQLite fails inside a
transaction, which then does not survive. -/
def Tracks (o : SqliteOracle) (x : Script DbError (ControlStore R) Unit) : Prop :=
  ∀ s, Ends x o.toOracle s (fun _ t => t.depth = s.depth ∧ Even s.store t.store)
    (fun e t => t.depth = s.depth ∧
      (s.depth ≠ 0 ∧ e.isFault = true ∨ Even s.store t.store))

lemma SqliteOracle.isFault (o : SqliteOracle) {e : DbError} (h : Faulted o.toOracle e) :
    e.isFault = true := by
  obtain ⟨n, hn⟩ := h
  exact o.faults n e hn

lemma Call.counted_run {c : Call} {o : Oracle DbError} {s : Session (ControlStore R)}
    {r : Except DbError Unit} {t : Session Tables}
    (h : c.script o (s.withStore s.store.tables) = (r, t)) :
    c.counted o s = (r, t.withStore
      { s.store with
        tables := t.store
        committed := s.store.committed +
          if c.changesState ∧ (r.isOk ∨ s.depth = 0 ∧ t.store ≠ s.store.tables) then 1 else 0 }) := by
  simp only [Call.counted, focus, h]
  split_ifs with hcount hcount' hcount'
  · rfl
  · exact absurd hcount hcount'
  · exact absurd hcount' hcount
  · rfl

lemma Call.counted_tracks (o : SqliteOracle) (c : Call) : Tracks (R := R) o c.counted := by
  intro s
  obtain ⟨hadds, hcommits⟩ := c.script_moves
  have hrun := hadds o.toOracle (s.withStore s.store.tables)
  have hatomic := hcommits o.toOracle (s.withStore s.store.tables)
  rcases hx : c.script o.toOracle (s.withStore s.store.tables) with ⟨r, t⟩
  have hcounted := Call.counted_run hx
  rw [hx] at hatomic
  refine ends_of_run (fun a u hu => ?_) fun e u hu => ?_
  · rw [hcounted, Prod.mk.injEq] at hu
    obtain ⟨rfl, rfl⟩ := hu
    obtain ⟨hdepth, hepoch⟩ := hrun.of_ok hx
    refine ⟨hdepth, ?_⟩
    have hok : (Except.ok a : Except DbError Unit).isOk = true := rfl
    simp only [Even, ControlStore.epoch, Session.withStore, hok, true_or, and_true] at hepoch ⊢
    rw [hepoch, Call.weight]
    omega
  · rw [hcounted, Prod.mk.injEq] at hu
    obtain ⟨rfl, rfl⟩ := hu
    obtain ⟨hdepth, hepoch⟩ := hrun.of_error hx
    refine ⟨hdepth, ?_⟩
    have hok : (Except.error e : Except DbError Unit).isOk = false := rfl
    by_cases h0 : s.depth = 0
    · right
      rcases (hatomic h0).2 with hsame | hmoved
      · have hunchanged : t.store = s.store.tables := hsame
        simp [Even, ControlStore.epoch, Session.withStore, hok, hunchanged]
      · -- it raised after its own commit
        change t.store.controlEpoch = s.store.tables.controlEpoch + c.weight at hmoved
        have hchanged : c.changesState = true → t.store ≠ s.store.tables := by
          intro hc heq
          rw [heq, Call.weight, if_pos hc] at hmoved
          omega
        have hcount : (c.changesState = true ∧
            ((Except.error e : Except DbError Unit).isOk = true ∨
              s.depth = 0 ∧ t.store ≠ s.store.tables)) ↔ c.changesState = true :=
          ⟨fun h => h.1, fun hc => ⟨hc, .inr ⟨h0, hchanged hc⟩⟩⟩
        simp only [Even, ControlStore.epoch, Session.withStore, hcount]
        rw [hmoved, Call.weight]
        omega
    · rcases hepoch with hfault | hsame
      · exact .inl ⟨h0, o.isFault hfault⟩
      · right
        change t.store.controlEpoch = s.store.tables.controlEpoch at hsame
        simp [Even, ControlStore.epoch, Session.withStore, hok, h0, hsame]

lemma tracks_of_moves (o : SqliteOracle) {x : Script DbError (ControlStore R) Unit}
    (hepoch : Moves ControlStore.epoch 0 x) (hcommitted : Retains ControlStore.committed x) :
    Tracks o x := by
  intro s
  have hcount := hcommitted o.toOracle s
  have hatomic := hepoch.2 o.toOracle s
  refine ends_of_run (fun a t hx => ?_) fun e t hx => ?_
  · obtain ⟨hdepth, hsame⟩ := (hepoch.1 o.toOracle s).of_ok hx
    rw [hx] at hcount
    exact ⟨hdepth, .of_same hsame hcount⟩
  · obtain ⟨hdepth, hsame⟩ := (hepoch.1 o.toOracle s).of_error hx
    rw [hx] at hcount hatomic
    refine ⟨hdepth, ?_⟩
    by_cases h0 : s.depth = 0
    · right
      rcases (hatomic h0).2 with hstore | hmoved
      · exact .of_same (congrArg ControlStore.epoch hstore) hcount
      · exact .of_same hmoved hcount
    · rcases hsame with hfault | hsame
      · exact .inl ⟨h0, o.isFault hfault⟩
      · exact .inr (.of_same hsame hcount)

lemma focus_tables_tracks (o : SqliteOracle) {x : DbScript Unit}
    (hx : Moves Tables.controlEpoch 0 x) :
    Tracks (R := R) o (focus ControlStore.tables ControlStore.setTables x) := by
  refine tracks_of_moves o (hx.focus (fun _ => rfl) fun part t => Nat.add_comm _ _) (.focus ?_ x)
  intro part t
  rfl

lemma markOutbox_moves (eventId : String) (status : OutboxStatus)
    (nextRetryAt deliveredAt lastError : Option String) :
    Moves Tables.controlEpoch 0 (do
      requireWritable .readOnlyControlDB
      transaction .readOnlyControlDB
        (execute (updateOutbox eventId status nextRetryAt deliveredAt lastError))
      let _ ← reread (Tables.getOutboxEvent eventId)) := by
  refine Moves.bind_left (reads_requireWritable _) fun _ => ?_
  refine Moves.bind_reads (Adds.moves (adds_execute fun s t h => updateOutbox_epoch h)) fun _ => ?_
  exact (reads_reread _).bind fun _ => reads_pure _

lemma Operation.tracks (o : SqliteOracle) (op : Operation R P) : Tracks o (op.run dumps) := by
  induction op with
  | call c => exact c.counted_tracks o
  | enqueueOutboxEvent a => exact focus_tables_tracks o (enqueueOutboxEvent_moves dumps a).discard
  | markOutbox eventId status nextRetryAt deliveredAt lastError =>
    exact focus_tables_tracks o (markOutbox_moves eventId status nextRetryAt deliveredAt lastError)
  | recordWatermark a =>
    refine tracks_of_moves o
      ((recordWatermark_moves a).discard.focus (fun _ => rfl) fun _ _ => rfl) (.focus ?_ _)
    intro part t
    rfl
  | record write =>
    have hwrite : ∀ store t : ControlStore R, (write store).map
        (fun others => { store with others := others }) = .ok t →
        t.epoch = store.epoch ∧ t.committed = store.committed := by
      intro store t h
      cases hw : write store with
      | error e => rw [hw] at h; cases h
      | ok others =>
        rw [hw] at h
        cases h
        exact ⟨rfl, rfl⟩
    refine tracks_of_moves o (.bind_left (reads_requireWritable _) fun _ => ?_)
      (.bind (reads_requireWritable _).keeps fun _ => ?_)
    · exact (adds_execute fun store t h => (hwrite store t h).1).moves
    · refine .transaction fun o' s => ?_
      simp only [execute]
      split
      · rfl
      · split
        · rfl
        · exact (hwrite _ _ ‹_›).2
  | read => exact tracks_of_moves o (reads_query _).moves (reads_query _).keeps
  | seq first next ihfirst ihnext =>
    intro s
    rw [Operation.run, ends_bind]
    refine (ihfirst s).mono (fun _ t ht => ?_) fun e t ht => ht
    refine (ihnext t).mono (fun _ u hu => ?_) fun e u hu => ?_
    · exact ⟨hu.1.trans ht.1, ht.2.trans hu.2⟩
    · refine ⟨hu.1.trans ht.1, hu.2.imp (fun hfault => ?_) fun heven => ht.2.trans heven⟩
      rwa [← ht.1]
  | block body ih =>
    intro s
    rw [Operation.run]
    by_cases h0 : s.depth = 0
    · refine ends_transaction h0 (fun _ => ⟨rfl, .inr (.refl _)⟩) (fun _ _ => ⟨rfl, .inr (.refl _)⟩)
        fun _ => ?_
      refine (ih _).mono (fun _ t ht => ⟨h0.symm, ht.2⟩) fun e t _ => ?_
      exact ⟨h0.symm, .inr (.refl _)⟩
    · refine ends_transaction_nested h0 (fun _ => ⟨rfl, .inr (.refl _)⟩) fun _ => ?_
      refine (ih _).mono (fun _ t ht => ⟨by simp [ht.1], ht.2⟩) fun e t ht => ?_
      exact ⟨by simp [ht.1], ht.2.imp_left fun hfault => ⟨h0, hfault.2⟩⟩
  | guarded body ih =>
    intro s
    rw [Operation.run, ends_bind]
    refine ends_caught ((ih s).mono (fun _ t ht => ends_pure.mpr ht) fun e t ht => ?_)
    cases hfault : e.isFault with
    | true => exact ⟨fun d hd => by simp at hd, fun _ => by simpa [hfault] using ht⟩
    | false =>
      refine ⟨fun d _ => ends_pure.mpr ⟨ht.1, ?_⟩, fun hd => by simp at hd⟩
      rcases ht.2 with hstop | heven
      · rw [hfault] at hstop
        exact absurd hstop.2 Bool.false_ne_true
      · exact heven

/-! ### Operations that are not to move it -/

/-- None of the four state-changing methods is called. -/
def Operation.Quiet : Operation R P → Prop
  | call c          => c.changesState = false
  | seq first next  => first.Quiet ∧ next.Quiet
  | block body      => body.Quiet
  | guarded body    => body.Quiet
  | _               => True

lemma Operation.Quiet.keeps {op : Operation R P} (h : op.Quiet) :
    Retains ControlStore.committed (op.run dumps) := by
  induction op with
  | call c =>
    intro o s
    have hquiet : c.changesState = false := h
    rcases hx : c.script o (s.withStore s.store.tables) with ⟨r, t⟩
    show ((c.counted o s).2.store).committed = _
    rw [Call.counted_run hx, hquiet]
    simp [Session.withStore]
  | enqueueOutboxEvent a => exact fun o s => rfl
  | markOutbox eventId status nextRetryAt deliveredAt lastError => exact fun o s => rfl
  | recordWatermark a => exact fun o s => rfl
  | record write =>
    refine .bind (reads_requireWritable _).keeps fun _ => .transaction fun o s => ?_
    simp only [execute]
    split
    · rfl
    · cases hw : write s.store with
      | error e => rfl
      | ok others => rfl
  | read => exact (reads_query _).keeps
  | seq first next ihfirst ihnext => exact (ihfirst h.1).bind fun _ => ihnext h.2
  | block body ih => exact (ih h).transaction
  | guarded body ih => exact (ih h).caught.bind fun _ => (reads_pure _).keeps

lemma Call.script_readOnly (c : Call) {o : Oracle DbError} {s : Session Tables}
    (h : s.readOnly = true) : c.script o s = (.error .readOnlyControlDB, s) := by
  have hrefused : requireWritable DbError.readOnlyControlDB o s = (.error .readOnlyControlDB, s) :=
    if_pos h
  cases c with
  | createRun a => exact run_bind_error (run_bind_error hrefused _) _
  | transitionRun a => exact run_bind_error (run_bind_error hrefused _) _
  | updateRun a => exact run_bind_error (run_bind_error hrefused _) _
  | startAttempt a => exact run_bind_error (run_bind_error hrefused _) _
  | finishAttempt a => exact run_bind_error (run_bind_error hrefused _) _
  | recordRunHeartbeat a => exact run_bind_error (run_bind_error hrefused _) _

lemma Operation.inert (op : Operation R P) : Inert (op.run dumps) := by
  induction op with
  | call c =>
    intro o s hro
    have hx := c.script_readOnly (o := o) (s := s.withStore s.store.tables) hro
    show (c.counted o s).2.store = s.store ∧ (c.counted o s).2.readOnly = true
    rw [Call.counted_run hx]
    exact ⟨by simp [Session.withStore, Except.isOk, Except.toBool], hro⟩
  | enqueueOutboxEvent a =>
    exact .focus (fun _ => rfl) (.bind (inert_requireWritable _ _) fun _ => .pure ())
  | markOutbox eventId status nextRetryAt deliveredAt lastError =>
    exact .focus (fun _ => rfl) (inert_requireWritable _ _)
  | recordWatermark a =>
    exact .focus (fun _ => rfl) (.bind (inert_requireWritable _ _) fun _ => .pure ())
  | record write => exact inert_requireWritable _ _
  | read =>
    intro o s hro
    rw [Operation.run, query]
    split
    · exact ⟨rfl, hro⟩
    · exact ⟨rfl, hro⟩
  | seq first next ihfirst ihnext => exact ihfirst.bind fun _ => ihnext
  | block body ih => exact inert_transaction _ _
  | guarded body ih => exact ih.caught.bind fun _ => .pure ()

/-- What the epoch of an open database says, whatever is called next. -/
structure EpochHonest (dumps : P → Except DbError String) (o : SqliteOracle)
    (c : Session (ControlStore R)) : Prop where
  counted : c.store.epoch = c.store.committed
  /-- A state-changing call that returns moves it by one, and no other call that returns moves it. -/
  returned : ∀ call t, (Operation.call (R := R) (P := P) call).run dumps o.toOracle c = (.ok (), t) →
    t.store.epoch = c.store.epoch + call.weight
  /-- A call that is refused leaves it. -/
  refused : ∀ call e t, (Operation.call (R := R) (P := P) call).run dumps o.toOracle c =
    (.error e, t) → e.isFault = false → t.store.epoch = c.store.epoch
  /-- A transaction that raises leaves nothing of what was done in it. -/
  rolledBack : ∀ body e t, (Operation.block (R := R) (P := P) body).run dumps o.toOracle c =
    (.error e, t) → t.store = c.store
  /-- Heartbeats, watermarks, reads and the other methods leave it, however they end. -/
  quiet : ∀ op : Operation R P, op.Quiet →
    (op.run dumps o.toOracle c).2.store.epoch = c.store.epoch
  /-- Through a read-only handle nothing changes. -/
  readOnly : c.readOnly = true → ∀ op : Operation R P, (op.run dumps o.toOracle c).2.store = c.store

variable (dumps) in
lemma Operation.even (o : SqliteOracle) (op : Operation R P) {s : Session (ControlStore R)}
    (h0 : s.depth = 0) : (op.run dumps o.toOracle s).2.depth = 0 ∧
      Even s.store (op.run dumps o.toOracle s).2.store := by
  have htracks : Tracks o (op.run dumps) := op.tracks o
  have hrun := htracks s
  rcases hx : op.run dumps o.toOracle s with ⟨r, t⟩
  cases r with
  | ok a =>
    obtain ⟨hdepth, heven⟩ := hrun.of_ok hx
    exact ⟨hdepth.trans h0, heven⟩
  | error e =>
    obtain ⟨hdepth, hstop | heven⟩ := hrun.of_error hx
    · exact absurd h0 hstop.1
    · exact ⟨hdepth.trans h0, heven⟩

lemma Call.counted_epoch {call : Call} {o : Oracle DbError} {s t : Session (ControlStore R)}
    {r : Except DbError Unit} (h : call.counted o s = (r, t)) :
    (∀ a, r = .ok a → t.store.epoch = s.store.epoch + call.weight) ∧
      ∀ e, r = .error e → Faulted o e ∨ t.store.epoch = s.store.epoch := by
  have hrun := call.script_moves.1 o (s.withStore s.store.tables)
  rcases hx : call.script o (s.withStore s.store.tables) with ⟨r', u⟩
  rw [Call.counted_run hx, Prod.mk.injEq] at h
  obtain ⟨rfl, rfl⟩ := h
  constructor
  · rintro a rfl
    exact (hrun.of_ok hx).2
  · rintro e rfl
    exact (hrun.of_error hx).2

end Operations

end AgenticDynamics.Control
