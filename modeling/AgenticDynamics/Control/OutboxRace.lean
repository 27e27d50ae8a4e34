import AgenticDynamics.Control.OutboxOrder

/-!
# Two publishers

Two drains of one outbox, one database call at a time in any order. A publisher fetches the due
rows once and then handles them one by one: an attempt with one mark at its end, and a handler
with another mark when the attempt raised.
-/

namespace AgenticDynamics.Control

open Python

variable {P : Type}

/-! ### One publisher, call by call -/

/-- Where a publisher stands; `fetched` are the rows it examines. -/
inductive Publisher
  | started
  | handling (fetched rows : List OutboxRecord) (report : DrainReport)
  | failing (fetched : List OutboxRecord) (row : OutboxRecord) (exc : DbError)
      (rows : List OutboxRecord) (report : DrainReport)
  | returned (fetched : List OutboxRecord) (report : DrainReport)
  | raised (e : DbError)

/-- The arguments of a drain and its surroundings. -/
structure DrainCall where
  env : Surroundings
  limit : Option ℤ

section Step

variable (rt : Runtime) (policy : BackoffPolicy) (call : DrainCall)

/-- The next database call of a publisher. -/
def Publisher.step (w : World) : Publisher → Publisher × World
  | started =>
    match call.env.connectError with
    | some (typeName, text) => (returned [] { streamError := typeName ++ ": " ++ text }, w)
    | none =>
      let rows := pendingOutboxEvents (isoZ call.env.now) call.limit w.tables
      (handling rows rows {}, w)
  | handling fetched [] report => (returned fetched report, w)
  | handling fetched (row :: rows) report =>
    match attempt rt call.env row w with
    | (.ok outcome, w') => (handling fetched rows (report.count outcome), w')
    | (.error exc, w')  => (failing fetched row exc rows report, w')
  | failing fetched row exc rows report =>
    match handleFailure rt policy call.env row w exc with
    | (.ok outcome, w') => (handling fetched rows (report.count outcome), w')
    | (.error e, w')    => (raised e, w')
  | p => (p, w)

/-- The publisher has returned its report or raised. -/
def Publisher.Ended : Publisher → Prop
  | returned _ _ => True
  | raised _     => True
  | _            => False

instance : DecidablePred Publisher.Ended
  | .returned _ _      => inferInstanceAs (Decidable True)
  | .raised _          => inferInstanceAs (Decidable True)
  | .started           => inferInstanceAs (Decidable False)
  | .handling _ _ _    => inferInstanceAs (Decidable False)
  | .failing _ _ _ _ _ => inferInstanceAs (Decidable False)

end Step

/-! ### Two of them -/

inductive Turn
  | first
  | second
  deriving DecidableEq

structure Race where
  first : Publisher := .started
  second : Publisher := .started
  world : World

section Race

variable (rt : Runtime) (policy : BackoffPolicy) (first second : DrainCall)

def Race.step (s : Race) : Turn → Race
  | .first =>
    let (p, w) := s.first.step rt policy first s.world
    { s with first := p, world := w }
  | .second =>
    let (p, w) := s.second.step rt policy second s.world
    { s with second := p, world := w }

def Race.run (s : Race) (turns : List Turn) : Race :=
  turns.foldl (Race.step rt policy first second) s

end Race

/-- The row of an event has been marked delivered. -/
def Delivered (db : Tables) (eventId : String) : Prop :=
  ∃ row, db.getOutboxEvent eventId = some row ∧ row.status = .delivered

/-- The stamp of the next attempt can be computed, where one is needed. -/
def Retriable (policy : BackoffPolicy) (env : Surroundings) (row : OutboxRecord) (exc : DbError) :
    Prop :=
  (∃ text, exc = .malformedPayload text) ∨ policy.isExhausted (row.attempts + 1) ∨
    ∃ stamp, policy.nextRetryAt (row.attempts + 1) (env.failedAt row.eventId) = .ok stamp

/-- The row a publisher has in hand has not been delivered by the other one, and a failure of it
can be recorded. -/
def Publisher.Clear (policy : BackoffPolicy) (call : DrainCall) (db : Tables) : Publisher → Prop
  | handling _ (row :: _) _ => ¬ Delivered db row.eventId
  | failing _ row exc _ _   => ¬ Delivered db row.eventId ∧ Retriable policy call.env row exc
  | _                       => True

def Race.Clear (policy : BackoffPolicy) (first second : DrainCall) (s : Race) : Turn → Prop
  | .first  => s.first.Clear policy first s.world.tables
  | .second => s.second.Clear policy second s.world.tables

def RunsClear (rt : Runtime) (policy : BackoffPolicy) (first second : DrainCall) :
    List Turn → Race → Prop
  | [], _            => True
  | turn :: turns, s =>
    s.Clear policy first second turn ∧
      RunsClear rt policy first second turns (s.step rt policy first second turn)

/-- A publisher has not raised, and a report it returned counts the rows it examined. -/
def Publisher.Sound : Publisher → Prop
  | raised _                => False
  | returned fetched report => report.examined = fetched.length
  | _                       => True

instance (db : Tables) (eventId : String) : Decidable (Delivered db eventId) :=
  decidable_of_iff ((db.getOutboxEvent eventId).any (·.status = .delivered)) (by
    simp [Delivered, Option.any_eq_true])

instance (policy : BackoffPolicy) (env : Surroundings) (row : OutboxRecord) (exc : DbError) :
    Decidable (Retriable policy env row exc) :=
  decidable_of_iff ((match exc with | .malformedPayload _ => true | _ => false) = true ∨
      policy.isExhausted (row.attempts + 1) ∨
      (policy.nextRetryAt (row.attempts + 1) (env.failedAt row.eventId)).toOption.isSome) (by
    unfold Retriable
    cases exc <;> cases policy.nextRetryAt (row.attempts + 1) (env.failedAt row.eventId) <;>
      simp [Except.toOption])

instance (policy : BackoffPolicy) (call : DrainCall) (db : Tables) :
    DecidablePred (Publisher.Clear policy call db)
  | .started                  => inferInstanceAs (Decidable True)
  | .handling _ [] _          => inferInstanceAs (Decidable True)
  | .handling _ (row :: _) _  => inferInstanceAs (Decidable (¬ Delivered db row.eventId))
  | .failing _ row exc _ _    =>
    inferInstanceAs (Decidable (¬ Delivered db row.eventId ∧ Retriable policy call.env row exc))
  | .returned _ _             => inferInstanceAs (Decidable True)
  | .raised _                 => inferInstanceAs (Decidable True)

instance (policy : BackoffPolicy) (first second : DrainCall) (s : Race) :
    DecidablePred (s.Clear policy first second)
  | .first  => inferInstanceAs (Decidable (s.first.Clear policy first s.world.tables))
  | .second => inferInstanceAs (Decidable (s.second.Clear policy second s.world.tables))

instance RunsClear.decidable (rt : Runtime) (policy : BackoffPolicy) (first second : DrainCall) :
    (turns : List Turn) → (s : Race) → Decidable (RunsClear rt policy first second turns s)
  | [], _            => inferInstanceAs (Decidable True)
  | turn :: turns, s =>
    have := RunsClear.decidable rt policy first second turns (s.step rt policy first second turn)
    inferInstanceAs (Decidable (s.Clear policy first second turn ∧
      RunsClear rt policy first second turns (s.step rt policy first second turn)))

instance : DecidablePred Publisher.Sound
  | .raised _                => inferInstanceAs (Decidable False)
  | .returned fetched report => inferInstanceAs (Decidable (report.examined = fetched.length))
  | .started                 => inferInstanceAs (Decidable True)
  | .handling _ _ _          => inferInstanceAs (Decidable True)
  | .failing _ _ _ _ _       => inferInstanceAs (Decidable True)

/-- Neither drain raises, every event has one row, in one state, and the reports add up. -/
structure RaceSafe (s : Race) : Prop where
  first : s.first.Sound
  second : s.second.Sound
  rows : ∀ row ∈ s.world.tables.outbox, s.world.tables.getOutboxEvent row.eventId = some row

/-! ### Steps -/

section Steps

variable {rt : Runtime} {policy : BackoffPolicy} {call : DrainCall} {w : World}
  {row : OutboxRecord}

lemma step_keeps (p : Publisher) : Remarked w.tables (p.step rt policy call w).2.tables := by
  cases p with
  | started =>
    simp only [Publisher.step]
    split <;> exact .refl _
  | handling fetched rows report =>
    cases rows with
    | nil => exact .refl _
    | cons row rows =>
      have hattempt := attempt_keeps rt call.env row w
      simp only [Publisher.step]
      split
      · next h => rwa [h] at hattempt
      · next h => rwa [h] at hattempt
  | failing fetched row exc rows report =>
    have hhandled := handleFailure_keeps rt policy call.env row w exc
    simp only [Publisher.step]
    split
    · next h => rwa [h] at hhandled
    · next h => rwa [h] at hhandled
  | returned fetched report => exact .refl _
  | raised e => exact .refl _

lemma Delivered.keep {s t : Tables} (hkeeps : Remarked s t) {eventId : String}
    (h : Delivered s eventId) : Delivered t eventId := by
  obtain ⟨row, hrow, hdel⟩ := h
  exact ⟨row, hkeeps.final eventId row hrow hdel, hdel⟩

lemma World.mark_outcome {w w' : World} {mark : Tables → Except DbError Tables}
    {entries : List Entry} {outcome outcome' : Outcome}
    (h : w.mark mark entries outcome = (.ok outcome', w')) : outcome = outcome' := by
  unfold World.mark at h
  split at h
  · simp at h
  · simpa using congrArg Prod.fst h

lemma mark_ok {w : World} (eventId : String) (status : OutboxStatus)
    (nextRetryAt deliveredAt lastError : Option String) (entries : List Entry)
    (outcome : Outcome) (hstored : (w.tables.getOutboxEvent eventId).isSome) :
    (∃ w', w.mark (updateOutbox eventId status nextRetryAt deliveredAt lastError) entries
      outcome = (.ok outcome, w')) ↔ ¬ Delivered w.tables eventId := by
  obtain ⟨hnone, -⟩ | ⟨current, hget, hdel, hrefused⟩ | ⟨current, hget, hlive, hok⟩ :=
    updateOutbox_cases eventId status nextRetryAt deliveredAt lastError w.tables
  · rw [hnone] at hstored
    cases hstored
  · refine iff_of_false ?_ (not_not.mpr ⟨current, hget, hdel⟩)
    rintro ⟨w', h⟩
    simp [World.mark, hrefused] at h
  · refine iff_of_true ⟨_, World.mark_eq hok entries outcome⟩ ?_
    rintro ⟨row, hrow, hdel⟩
    rw [hget] at hrow
    cases hrow
    exact hlive hdel

lemma live_of_mark {w w' : World} {eventId : String} {status : OutboxStatus}
    {nextRetryAt deliveredAt lastError : Option String} {entries : List Entry}
    {outcome outcome' : Outcome} (hstored : (w.tables.getOutboxEvent eventId).isSome)
    (hrun : w.mark (updateOutbox eventId status nextRetryAt deliveredAt lastError) entries
      outcome = (.ok outcome', w')) : ¬ Delivered w.tables eventId := by
  have houtcome := World.mark_outcome hrun
  subst houtcome
  exact (mark_ok eventId status nextRetryAt deliveredAt lastError entries outcome hstored).mp
    ⟨w', hrun⟩

lemma attempt_delivered (h : Delivered w.tables row.eventId) :
    ∃ e w', attempt rt call.env row w = (.error e, w') := by
  have hstored : (w.tables.getOutboxEvent row.eventId).isSome := by
    obtain ⟨stored, hget, -⟩ := h
    rw [hget]
    rfl
  rcases hrun : attempt rt call.env row w with ⟨result, w'⟩
  cases result with
  | error e => exact ⟨e, w', rfl⟩
  | ok outcome =>
    exfalso
    unfold attempt at hrun
    split at hrun
    · simp at hrun
    · split at hrun
      · simp at hrun
      · exact live_of_mark (w := w.note _) hstored hrun h
      · split at hrun
        · simp at hrun
        · split at hrun
          · simp at hrun
          · exact live_of_mark (w := (w.note _).note _) hstored hrun h

lemma handleFailure_ok (exc : DbError) (hstored : (w.tables.getOutboxEvent row.eventId).isSome) :
    (∃ outcome w', handleFailure rt policy call.env row w exc = (.ok outcome, w')) ↔
      ¬ Delivered w.tables row.eventId ∧ Retriable policy call.env row exc := by
  -- wherever a mark is reached, only a delivered row can refuse it
  have hmark : ∀ status nextRetryAt deliveredAt lastError outcome,
      (∃ outcome' w', w.mark (updateOutbox row.eventId status nextRetryAt deliveredAt lastError)
        [] outcome = (.ok outcome', w')) ↔ ¬ Delivered w.tables row.eventId := by
    intro status nextRetryAt deliveredAt lastError outcome
    constructor
    · rintro ⟨outcome', w', hrun⟩
      exact live_of_mark hstored hrun
    · intro hlive
      exact ⟨outcome, (mark_ok _ _ _ _ _ _ outcome hstored).mpr hlive⟩
  have hcharged : (∃ outcome w', recordFailure rt policy call.env row exc w = (.ok outcome, w')) ↔
      ¬ Delivered w.tables row.eventId ∧ (policy.isExhausted (row.attempts + 1) ∨
        ∃ stamp, policy.nextRetryAt (row.attempts + 1) (call.env.failedAt row.eventId) =
          .ok stamp) := by
    unfold recordFailure
    by_cases hexhausted : policy.isExhausted (row.attempts + 1)
    · simp only [hexhausted, if_true, true_or, and_true]
      exact hmark _ _ _ _ _
    · cases hstamp : policy.nextRetryAt (row.attempts + 1) (call.env.failedAt row.eventId) with
      | error e => simp [hexhausted]
      | ok stamp =>
        simp only [hexhausted, Bool.false_eq_true, if_false, Except.ok.injEq, exists_eq', or_true,
          and_true]
        exact hmark _ _ _ _ _
  unfold Retriable
  cases exc with
  | malformedPayload text =>
    simp only [handleFailure, DbError.malformedPayload.injEq, exists_eq', true_or, and_true]
    exact hmark _ _ _ _ _
  | _ => simpa [handleFailure] using hcharged

/-! ### What a publisher keeps -/

/-- A publisher holds rows of the table, and its report counts the ones it is done with. -/
def Publisher.Good (db : Tables) : Publisher → Prop
  | handling fetched rows report =>
    (∀ row ∈ rows, (db.getOutboxEvent row.eventId).isSome) ∧
      report.examined + rows.length = fetched.length
  | failing fetched row _ rows report =>
    (∀ r ∈ row :: rows, (db.getOutboxEvent r.eventId).isSome) ∧
      report.examined + rows.length + 1 = fetched.length
  | returned fetched report => report.examined = fetched.length
  | _ => True

lemma Publisher.Good.keep {s t : Tables} (hkeeps : Remarked s t) {p : Publisher}
    (h : p.Good s) : p.Good t := by
  cases p with
  | handling fetched rows report => exact ⟨fun row hrow => hkeeps.isSome (h.1 row hrow), h.2⟩
  | failing fetched row exc rows report =>
    exact ⟨fun r hr => hkeeps.isSome (h.1 r hr), h.2⟩
  | _ => exact h

lemma examined_count (report : DrainReport) (outcome : Outcome) :
    (report.count outcome).examined = report.examined + 1 := by
  cases outcome <;> simp only [DrainReport.count, DrainReport.examined] <;> omega

lemma stored_of_mem {db : Tables} (hrow : row ∈ db.outbox) :
    (db.getOutboxEvent row.eventId).isSome := by
  simp only [Tables.getOutboxEvent, List.find?_isSome]
  exact ⟨row, hrow, by simp⟩

lemma pending_subset (now : String) (limit : Option ℤ) (db : Tables) :
    pendingOutboxEvents now limit db ⊆ db.outbox := by
  intro row hrow
  have hsorted := (limited_sublist limit _).subset hrow
  exact List.mem_of_mem_filter (List.mem_mergeSort.mp hsorted)

lemma Publisher.Good.step {p : Publisher} (h : p.Good w.tables) :
    (p.step rt policy call w).1.Good (p.step rt policy call w).2.tables := by
  apply Good.keep (step_keeps p)
  cases p with
  | started =>
    simp only [Publisher.step]
    split
    · rfl
    · refine ⟨fun row hrow => stored_of_mem (pending_subset _ _ _ hrow), ?_⟩
      simp [DrainReport.examined]
  | handling fetched rows report =>
    cases rows with
    | nil => simpa [Publisher.step, Good] using h
    | cons row rows =>
      obtain ⟨hstored, hcount⟩ := h
      simp only [List.length_cons] at hcount
      simp only [Publisher.step]
      split
      · refine ⟨fun r hr => hstored r (by simp [hr]), ?_⟩
        rw [examined_count]
        omega
      · exact ⟨hstored, by omega⟩
  | failing fetched row exc rows report =>
    obtain ⟨hstored, hcount⟩ := h
    simp only [Publisher.step]
    split
    · refine ⟨fun r hr => hstored r (by simp [hr]), ?_⟩
      rw [examined_count]
      omega
    · trivial
  | returned fetched report => exact h
  | raised e => trivial

lemma Publisher.Good.step_clear {p : Publisher} (h : p.Good w.tables) (hsound : p.Sound)
    (hclear : p.Clear policy call w.tables) : (p.step rt policy call w).1.Sound := by
  have hgood : (p.step rt policy call w).1.Good (p.step rt policy call w).2.tables := h.step
  suffices hlive : ∀ e, (p.step rt policy call w).1 ≠ raised e by
    cases hstep : (p.step rt policy call w).1 with
    | raised e => exact absurd hstep (hlive e)
    | returned fetched report =>
      rw [hstep] at hgood
      exact hgood
    | _ => trivial
  intro e
  cases p with
  | started =>
    simp only [Publisher.step]
    split <;> simp
  | handling fetched rows report =>
    cases rows with
    | nil => simp [Publisher.step]
    | cons row rows =>
      simp only [Publisher.step]
      split <;> simp
  | failing fetched row exc rows report =>
    have hrecorded : ∃ outcome w', handleFailure rt policy call.env row w exc = (.ok outcome, w') :=
      (handleFailure_ok exc (h.1 row (by simp))).mpr hclear
    obtain ⟨outcome, w', hrun⟩ := hrecorded
    simp [Publisher.step, hrun]
  | returned fetched report => simp [Publisher.step]
  | raised e' => exact hsound.elim

/-- The publisher will raise: its row is delivered, or its failure cannot be recorded. -/
def Publisher.Doomed (policy : BackoffPolicy) (call : DrainCall) (db : Tables) (p : Publisher) :
    Prop :=
  ¬ p.Sound ∨ ¬ p.Clear policy call db

lemma Publisher.Doomed.keep {s t : Tables} (hkeeps : Remarked s t) {p : Publisher}
    (h : p.Doomed policy call s) : p.Doomed policy call t := by
  refine h.imp_right fun hclear => ?_
  cases p with
  | handling fetched rows report =>
    cases rows with
    | nil => exact hclear
    | cons row rows => exact not_not.mpr ((not_not.mp hclear).keep hkeeps)
  | failing fetched row exc rows report =>
    rintro ⟨hlive, hretriable⟩
    exact hclear ⟨fun hdel => hlive (hdel.keep hkeeps), hretriable⟩
  | _ => exact hclear

lemma Publisher.Doomed.step {p : Publisher} (hgood : p.Good w.tables)
    (h : p.Doomed policy call w.tables) :
    (p.step rt policy call w).1.Doomed policy call (p.step rt policy call w).2.tables := by
  have hkeeps : Remarked w.tables (p.step rt policy call w).2.tables := step_keeps p
  cases p with
  | started => simp [Doomed, Sound, Clear] at h
  | handling fetched rows report =>
    cases rows with
    | nil => simp [Doomed, Sound, Clear] at h
    | cons row rows =>
      obtain hraised | hclear := h
      · exact absurd trivial hraised
      have hdel : Delivered w.tables row.eventId := not_not.mp hclear
      have hrefused : ∃ exc w', attempt rt call.env row w = (.error exc, w') :=
        attempt_delivered hdel
      obtain ⟨exc, w', hrun⟩ := hrefused
      simp only [Publisher.step, hrun] at hkeeps ⊢
      exact .inr fun hcalm => hcalm.1 (hdel.keep hkeeps)
  | failing fetched row exc rows report =>
    obtain hraised | hclear := h
    · exact absurd trivial hraised
    rcases hrun : handleFailure rt policy call.env row w exc with ⟨result, w'⟩
    cases result with
    | ok outcome =>
      exact absurd ((handleFailure_ok exc (hgood.1 row (by simp))).mp ⟨outcome, w', hrun⟩) hclear
    | error e =>
      simp only [Publisher.step, hrun]
      exact .inl id
  | returned fetched report => exact h
  | raised e => exact h

/-- The turns after which a publisher has ended. -/
def Publisher.left (db : Tables) : Publisher → ℕ
  | started             => 2 * db.outbox.length + 2
  | handling _ rows _   => 2 * rows.length + 1
  | failing _ _ _ rows _ => 2 * rows.length + 2
  | _                   => 0

lemma Publisher.ended_of_left {db : Tables} {p : Publisher} (h : p.left db = 0) : p.Ended := by
  cases p <;> simp_all [left, Ended]

lemma Publisher.left_keep {s t : Tables} (hkeeps : Remarked s t) (p : Publisher) :
    p.left t = p.left s := by
  have hlength : t.outbox.length = s.outbox.length := by
    simpa using congrArg List.length hkeeps.keys
  cases p <;> simp [left, hlength]

lemma Publisher.left_step (p : Publisher) :
    (p.step rt policy call w).1.left (p.step rt policy call w).2.tables ≤
      p.left w.tables - 1 := by
  rw [left_keep (step_keeps p)]
  cases p with
  | started =>
    simp only [Publisher.step]
    split
    · simp [left]
    · have hrows : (pendingOutboxEvents (isoZ call.env.now) call.limit w.tables).length ≤
          w.tables.outbox.length := by
        have hsub := (limited_sublist call.limit
          ((w.tables.outbox.filter (isDue (isoZ call.env.now))).mergeSort createdBefore)).length_le
        rw [List.length_mergeSort] at hsub
        exact hsub.trans (List.length_filter_le _ _)
      simp only [left]
      omega
  | handling fetched rows report =>
    cases rows with
    | nil => simp [Publisher.step, left]
    | cons row rows =>
      simp only [Publisher.step]
      split <;> simp only [left, List.length_cons] <;> omega
  | failing fetched row exc rows report =>
    simp only [Publisher.step]
    split <;> simp only [left] <;> omega
  | returned fetched report => simp [Publisher.step, left]
  | raised e => simp [Publisher.step, left]

end Steps

/-! ### Runs of the two -/

/-- What a race keeps: the publishers are good and the ids of the rows are unique. -/
structure Race.Good (s : Race) : Prop where
  first : s.first.Good s.world.tables
  second : s.second.Good s.world.tables
  ids : (s.world.tables.outbox.map OutboxRecord.eventId).Nodup

section Runs

variable {rt : Runtime} {policy : BackoffPolicy} {first second : DrainCall}

lemma Race.step_remarked (s : Race) (turn : Turn) :
    Remarked s.world.tables (s.step rt policy first second turn).world.tables := by
  cases turn with
  | first => exact step_keeps s.first
  | second => exact step_keeps s.second

lemma Race.Good.step {s : Race} (h : s.Good) (turn : Turn) :
    (s.step rt policy first second turn).Good := by
  have hkeeps : Remarked s.world.tables (s.step rt policy first second turn).world.tables :=
    s.step_remarked turn
  have hids : ((s.step rt policy first second turn).world.tables.outbox.map
      OutboxRecord.eventId).Nodup := by
    rw [hkeeps.ids]
    exact h.ids
  cases turn with
  | first => exact ⟨h.first.step, h.second.keep hkeeps, hids⟩
  | second => exact ⟨h.first.keep hkeeps, h.second.step, hids⟩

lemma get_of_nodup {db : Tables} (hids : (db.outbox.map OutboxRecord.eventId).Nodup)
    {row : OutboxRecord} (hrow : row ∈ db.outbox) : db.getOutboxEvent row.eventId = some row := by
  obtain ⟨found, hfound⟩ := Option.isSome_iff_exists.mp (stored_of_mem hrow)
  have hid : found.eventId = row.eventId := by simpa using List.find?_some hfound
  rw [hfound, List.inj_on_of_nodup_map hids (List.mem_of_find?_eq_some hfound) hrow hid]

lemma Race.Good.safe {s : Race} (h : s.Good) (hfirst : s.first.Sound) (hsecond : s.second.Sound) :
    RaceSafe s :=
  ⟨hfirst, hsecond, fun _ hrow => get_of_nodup h.ids hrow⟩

lemma Race.Good.run_clear {s : Race} (h : s.Good) (hfirst : s.first.Sound)
    (hsecond : s.second.Sound) {turns : List Turn}
    (hclear : RunsClear rt policy first second turns s) :
    RaceSafe (s.run rt policy first second turns) := by
  induction turns generalizing s with
  | nil => exact h.safe hfirst hsecond
  | cons turn turns ih =>
    obtain ⟨hnow, hlater⟩ := hclear
    cases turn with
    | first => exact ih (h.step .first) (h.first.step_clear hfirst hnow) hsecond hlater
    | second => exact ih (h.step .second) hfirst (h.second.step_clear hsecond hnow) hlater

def Race.Doomed (policy : BackoffPolicy) (first second : DrainCall) (s : Race) : Prop :=
  s.first.Doomed policy first s.world.tables ∨ s.second.Doomed policy second s.world.tables

lemma Race.Doomed.step {s : Race} (hgood : s.Good) (h : s.Doomed policy first second)
    (turn : Turn) : (s.step rt policy first second turn).Doomed policy first second := by
  have hkeeps : Remarked s.world.tables (s.step rt policy first second turn).world.tables :=
    s.step_remarked turn
  cases turn with
  | first =>
    obtain h | h := h
    · exact .inl (h.step hgood.first)
    · exact .inr (h.keep hkeeps)
  | second =>
    obtain h | h := h
    · exact .inl (h.keep hkeeps)
    · exact .inr (h.step hgood.second)

lemma Race.Doomed.run {s : Race} (hgood : s.Good) (h : s.Doomed policy first second)
    (turns : List Turn) : (s.run rt policy first second turns).Doomed policy first second := by
  induction turns generalizing s with
  | nil => exact h
  | cons turn turns ih => exact ih (hgood.step turn) (h.step hgood turn)

lemma Publisher.Doomed.not_sound {p : Publisher} {call : DrainCall} {db : Tables}
    (h : p.Doomed policy call db) (hended : p.Ended) : ¬ p.Sound := by
  cases p with
  | returned fetched report => simpa [Doomed, Clear] using h
  | raised e => exact id
  | _ => exact hended.elim

lemma Race.Good.clear_of_safe {s : Race} (h : s.Good) {turns : List Turn}
    (hfirst : (s.run rt policy first second turns).first.Ended)
    (hsecond : (s.run rt policy first second turns).second.Ended)
    (hsafe : RaceSafe (s.run rt policy first second turns)) :
    RunsClear rt policy first second turns s := by
  induction turns generalizing s with
  | nil => trivial
  | cons turn turns ih =>
    refine ⟨?_, ih (h.step turn) hfirst hsecond hsafe⟩
    by_contra hclear
    have hdoomed : s.Doomed policy first second := by
      cases turn with
      | first => exact .inl (.inr hclear)
      | second => exact .inr (.inr hclear)
    have hends : (s.run rt policy first second (turn :: turns)).Doomed policy first second :=
      hdoomed.run h (turn :: turns)
    obtain hraises | hraises := hends
    · exact hraises.not_sound hfirst hsafe.first
    · exact hraises.not_sound hsecond hsafe.second

lemma Race.left_run (s : Race) (turns : List Turn) :
    (s.run rt policy first second turns).first.left
        (s.run rt policy first second turns).world.tables ≤
      s.first.left s.world.tables - turns.count .first ∧
    (s.run rt policy first second turns).second.left
        (s.run rt policy first second turns).world.tables ≤
      s.second.left s.world.tables - turns.count .second := by
  induction turns generalizing s with
  | nil => exact ⟨le_refl _, le_refl _⟩
  | cons turn turns ih =>
    obtain ⟨hfirst, hsecond⟩ := ih (s.step rt policy first second turn)
    have hkeeps : Remarked s.world.tables (s.step rt policy first second turn).world.tables :=
      s.step_remarked turn
    cases turn with
    | first =>
      have hturn : (s.first.step rt policy first s.world).1.left
          (s.first.step rt policy first s.world).2.tables ≤ s.first.left s.world.tables - 1 :=
        Publisher.left_step s.first
      have hother := s.second.left_keep hkeeps
      simp only [Race.run, List.foldl_cons, List.count_cons, Race.step] at *
      simp only [beq_self_eq_true, if_true, reduceCtorEq, beq_iff_eq, if_false]
      constructor <;> omega
    | second =>
      have hturn : (s.second.step rt policy second s.world).1.left
          (s.second.step rt policy second s.world).2.tables ≤ s.second.left s.world.tables - 1 :=
        Publisher.left_step s.second
      have hother := s.first.left_keep hkeeps
      simp only [Race.run, List.foldl_cons, List.count_cons, Race.step] at *
      simp only [beq_self_eq_true, if_true, reduceCtorEq, beq_iff_eq, if_false]
      constructor <;> omega

end Runs

/-- Whatever filled the outbox, and in whatever order the database calls of two drains come: both
end after finitely many turns, and neither raises, every event has one row and the reports add up
exactly when no drain turns to a row that the other one has delivered and every failure can be
recorded. -/
theorem two_publishers_safe (rt : Runtime) (policy : BackoffPolicy)
    (dumps : P → Except DbError String) (tables : Tables) (hempty : tables.outbox = [])
    (earlier : List (OutboxCall P)) (first second : DrainCall) (turns : List Turn) :
    let start : Race := { world := (performOutbox rt policy dumps earlier { tables := tables }).1 }
    let s := start.run rt policy first second turns
    ((∀ turn, 2 * start.world.tables.outbox.length + 2 ≤ turns.count turn) →
      s.first.Ended ∧ s.second.Ended) ∧
    (RunsClear rt policy first second turns start → RaceSafe s) ∧
    (s.first.Ended → s.second.Ended → RaceSafe s → RunsClear rt policy first second turns start) := by
  intro start s
  have hgood : start.Good :=
    ⟨trivial, trivial, (performOutbox_queue rt policy dumps hempty earlier).keys⟩
  refine ⟨?_, hgood.run_clear trivial trivial, hgood.clear_of_safe⟩
  intro hturns
  have hleft : s.first.left s.world.tables ≤
      start.first.left start.world.tables - turns.count .first ∧
      s.second.left s.world.tables ≤ start.second.left start.world.tables - turns.count .second :=
    Race.left_run start turns
  obtain ⟨hfirst, hsecond⟩ := hleft
  constructor
  · apply Publisher.ended_of_left
    exact Nat.le_zero.mp (hfirst.trans_eq (Nat.sub_eq_zero_of_le (hturns .first)))
  · apply Publisher.ended_of_left
    exact Nat.le_zero.mp (hsecond.trans_eq (Nat.sub_eq_zero_of_le (hturns .second)))

def oneOwed : List (OutboxCall String) :=
  [.other (.enqueue .quiet { runId := "run-a", payload := renderPayload samplePayload
                             eventId := some "evt-a", createdAt := some "2026-01-01T00:00:00Z" })]

/-- A drain that publishes what it fetches. -/
def publishing : DrainCall where
  env := { now := 63902822400000000 + 3600000000
           failedAt := fun _ => 63902822400000000 + 3600000000
           markedAt := fun _ => "2026-01-01T01:00:00Z"
           checkpointed := fun _ => .ok false
           writeArtifact := fun _ => .ok ()
           publish := fun _ => .ok "1-0" }
  limit := none

theorem two_publishers_safe_taken_turns :
    RaceSafe (Race.run sampleRuntime {} publishing publishing
      { world := (performOutbox sampleRuntime {} .ok oneOwed { tables := oneRunning.store }).1 }
      [.first, .first, .second, .first, .second]) :=
  (two_publishers_safe sampleRuntime {} .ok oneRunning.store (by decide +kernel) oneOwed
    publishing publishing [.first, .first, .second, .first, .second]).2.1 (by decide +kernel)

/-- Both fetch the row; the mark of the second is refused, and so is the mark of its failure. -/
theorem second_publisher_raises :
    let s := Race.run sampleRuntime {} publishing publishing
      { world := (performOutbox sampleRuntime {} .ok oneOwed { tables := oneRunning.store }).1 }
      [.first, .second, .first, .second, .second, .first]
    s.first.Ended ∧ s.second.Ended ∧ ¬ RaceSafe s := by
  intro s
  have hraised : s.first.Ended ∧ s.second.Ended ∧ ¬ s.second.Sound := by decide +kernel
  obtain ⟨hfirst, hsecond, hraised⟩ := hraised
  exact ⟨hfirst, hsecond, fun hsafe => hraised hsafe.second⟩

end AgenticDynamics.Control
