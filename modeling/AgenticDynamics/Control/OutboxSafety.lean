import AgenticDynamics.Control.Outbox

/-!
# Safety of the outbox

Handling one pending row does one of five things to it, each with its own entries in the log:
delivered after an acknowledgement, delivered after its checkpoint was found, scheduled again,
dead, or (when the retry stamp cannot be computed) nothing, with the exception leaving the drain.
Every invariant of the outbox follows from this case distinction.
-/

namespace AgenticDynamics.Control

open Python

variable {P : Type}

/-! ### Handling one row -/

def Tables.rewrite (eventId : String) (f : OutboxRecord → OutboxRecord) (db : Tables) : Tables :=
  { db with outbox := db.outbox.map fun row => if row.eventId = eventId then f row else row }

/-- `f` charges `row` one attempt and gives it a status. -/
structure Marks (row : OutboxRecord) (status : OutboxStatus) (f : OutboxRecord → OutboxRecord) :
    Prop where
  eventId : ∀ r, (f r).eventId = r.eventId
  status : ∀ r, (f r).status = status
  attempts : ∀ r, (f r).attempts = row.attempts + 1

lemma marks_remark (row : OutboxRecord) (status : OutboxStatus)
    (nextRetryAt deliveredAt lastError : Option String) :
    Marks row status (remark row status nextRetryAt deliveredAt lastError) :=
  ⟨fun _ => rfl, fun _ => rfl, fun _ => rfl⟩

lemma updateOutbox_eq {db : Tables} {row : OutboxRecord} {status : OutboxStatus}
    {nextRetryAt deliveredAt lastError : Option String}
    (hget : db.getOutboxEvent row.eventId = some row) (hpend : row.status = .pending) :
    updateOutbox row.eventId status nextRetryAt deliveredAt lastError db =
      .ok (db.rewrite row.eventId (remark row status nextRetryAt deliveredAt lastError)) := by
  simp only [updateOutbox, hget, hpend, reduceCtorEq, if_false, Tables.updateOutbox]
  rfl

lemma World.mark_eq {w : World} {mark : Tables → Except DbError Tables} {t : Tables}
    (h : mark w.tables = .ok t) (entries : List Entry) (outcome : Outcome) :
    w.mark mark entries outcome = (.ok outcome, ⟨t, w.log ++ entries⟩) := by
  simp only [World.mark, h]

/-- Which status and which log entries belong to an outcome. -/
inductive Evidence (policy : BackoffPolicy) (row : OutboxRecord) :
    Outcome → OutboxStatus → List Entry → Prop
  | delivered : Evidence policy row .delivered .delivered
      [.handed row.eventId, .acked row.eventId, .delivered row.eventId]
  | skipped : Evidence policy row .skipped .delivered [.found row.eventId, .delivered row.eventId]
  | retried (hlt : row.attempts + 1 < policy.maxAttempts) (entries : List Entry)
      (hentries : entries = [] ∨ entries = [.handed row.eventId]) :
      Evidence policy row .retried .pending entries
  | dead (entries : List Entry) (hentries : entries = [] ∨ entries = [.handed row.eventId]) :
      Evidence policy row .dead .dead entries

/-- Everything the handling of a pending row can do. -/
inductive RowStep (policy : BackoffPolicy) (env : Surroundings) (row : OutboxRecord) (w : World) :
    Except DbError Outcome → World → Prop
  | marked {outcome : Outcome} {status : OutboxStatus} {entries : List Entry}
      {f : OutboxRecord → OutboxRecord} (hf : Marks row status f)
      (he : Evidence policy row outcome status entries) :
      RowStep policy env row w (.ok outcome) ⟨w.tables.rewrite row.eventId f, w.log ++ entries⟩
  | raised (e : DbError) (hlt : row.attempts + 1 < policy.maxAttempts)
      (hstamp : policy.nextRetryAt (row.attempts + 1) (env.failedAt row.eventId) = .error e)
      (entries : List Entry) (hentries : entries = [] ∨ entries = [.handed row.eventId]) :
      RowStep policy env row w (.error e) ⟨w.tables, w.log ++ entries⟩

/-- What an attempt leaves behind: a mark with its evidence, or an error before any mark. -/
inductive AttemptStep (row : OutboxRecord) (w : World) : Except DbError Outcome → World → Prop
  | delivered (f : OutboxRecord → OutboxRecord) (hf : Marks row .delivered f) :
      AttemptStep row w (.ok .delivered) ⟨w.tables.rewrite row.eventId f,
        w.log ++ [.handed row.eventId, .acked row.eventId, .delivered row.eventId]⟩
  | skipped (f : OutboxRecord → OutboxRecord) (hf : Marks row .delivered f) :
      AttemptStep row w (.ok .skipped) ⟨w.tables.rewrite row.eventId f,
        w.log ++ [.found row.eventId, .delivered row.eventId]⟩
  | failed (e : DbError) (entries : List Entry)
      (hentries : entries = [] ∨ entries = [.handed row.eventId]) :
      AttemptStep row w (.error e) ⟨w.tables, w.log ++ entries⟩

section Row

variable {rt : Runtime} {policy : BackoffPolicy} {env : Surroundings} {row : OutboxRecord}
  {w : World}

lemma attempt_step (rt : Runtime) (env : Surroundings)
    (hget : w.tables.getOutboxEvent row.eventId = some row) (hpend : row.status = .pending) :
    AttemptStep row w (attempt rt env row w).1 (attempt rt env row w).2 := by
  have hsame : ∀ e, AttemptStep row w (.error e) w := by
    intro e
    have h : AttemptStep row w (.error e) ⟨w.tables, w.log ++ []⟩ := .failed e [] (.inl rfl)
    rwa [List.append_nil] at h
  simp only [attempt]
  cases parse rt row with
  | error e => exact hsame e
  | ok payload =>
    dsimp only
    cases lookUp env row payload with
    | error e => exact hsame e
    | ok found =>
      cases found with
      | true =>
        simp only [markOutboxDelivered, World.note, World.mark, updateOutbox_eq hget hpend,
          List.append_assoc]
        exact .skipped _ (marks_remark _ _ _ _ _)
      | false =>
        dsimp only
        cases prepare rt env row payload with
        | error e => exact hsame e
        | ok _ =>
          dsimp only
          cases env.publish row.eventId with
          | error e => exact .failed (external e) _ (.inr rfl)
          | ok ack =>
            simp only [markOutboxDelivered, World.note, World.mark, updateOutbox_eq hget hpend,
              List.append_assoc]
            exact .delivered _ (marks_remark _ _ _ _ _)

lemma recordFailure_step {exc : DbError} {entries : List Entry}
    (hentries : entries = [] ∨ entries = [.handed row.eventId])
    (hget : w.tables.getOutboxEvent row.eventId = some row) (hpend : row.status = .pending) :
    RowStep policy env row w
      (recordFailure rt policy env row exc ⟨w.tables, w.log ++ entries⟩).1
      (recordFailure rt policy env row exc ⟨w.tables, w.log ++ entries⟩).2 := by
  simp only [recordFailure]
  split
  case isTrue =>
    simp only [markOutboxDead, World.mark, updateOutbox_eq hget hpend, List.append_nil]
    exact .marked (marks_remark _ _ _ _ _) (.dead entries hentries)
  case isFalse hlive =>
    have hlt : row.attempts + 1 < policy.maxAttempts := by
      simpa [BackoffPolicy.isExhausted] using hlive
    cases hstamp : policy.nextRetryAt (row.attempts + 1) (env.failedAt row.eventId) with
    | error e => exact .raised e hlt hstamp entries hentries
    | ok nextAt =>
      simp only [markOutboxRetry, World.mark, updateOutbox_eq hget hpend, List.append_nil]
      exact .marked (marks_remark _ _ _ _ _) (.retried hlt entries hentries)

lemma deliverRow_step (rt : Runtime) (policy : BackoffPolicy) (env : Surroundings)
    (hget : w.tables.getOutboxEvent row.eventId = some row) (hpend : row.status = .pending) :
    RowStep policy env row w (deliverRow rt policy env row w).1
      (deliverRow rt policy env row w).2 := by
  have hstep := attempt_step rt env hget hpend
  rcases hattempt : attempt rt env row w with ⟨r, w'⟩
  rw [hattempt] at hstep
  simp only [deliverRow, hattempt]
  cases hstep with
  | delivered f hf => exact .marked hf .delivered
  | skipped f hf => exact .marked hf .skipped
  | failed e entries hentries =>
    cases e with
    | malformedPayload text =>
      simp only [markOutboxDead, World.mark, updateOutbox_eq hget hpend, List.append_nil]
      exact .marked (marks_remark _ _ _ _ _) (.dead entries hentries)
    | _ => exact recordFailure_step hentries hget hpend

/-- The payload is refused, or its record cannot be rebuilt and no checkpoint spares it that. -/
def Malformed (rt : Runtime) (env : Surroundings) (row : OutboxRecord) : Prop :=
  ∃ text, parse rt row = .error (.malformedPayload text) ∨
    ∃ payload, parse rt row = .ok payload ∧ lookUp env row payload = .ok false ∧
      rebuild rt payload = .error (.malformedPayload text)

lemma deliverRow_malformed (hmal : Malformed rt env row)
    (hget : w.tables.getOutboxEvent row.eventId = some row) (hpend : row.status = .pending) :
    (deliverRow rt policy env row w).1 = .ok .dead := by
  obtain ⟨text, hparse | ⟨payload, hparse, hlook, hrebuild⟩⟩ := hmal
  · simp only [deliverRow, attempt, hparse, markOutboxDead, World.mark,
      updateOutbox_eq hget hpend]
  · have hprepare : prepare rt env row payload = .error (.malformedPayload text) := by
      simp only [prepare, hrebuild]
      rfl
    simp only [deliverRow, attempt, hparse, hlook, hprepare, markOutboxDead, World.mark,
      updateOutbox_eq hget hpend]

end Row

/-! ### The invariant -/

/-- Every delivery in the log comes after its acknowledgement or its checkpoint. -/
inductive Justified : List Entry → Prop
  | nil : Justified []
  | snoc {log : List Entry} {e : Entry} (h : Justified log)
      (he : ∀ id, e = .delivered id → .acked id ∈ log ∨ .found id ∈ log) : Justified (log ++ [e])

lemma Justified.split {log : List Entry} (h : Justified log) {before after : List Entry}
    {id : String} (hlog : log = before ++ .delivered id :: after) :
    .acked id ∈ before ∨ .found id ∈ before := by
  induction h generalizing after with
  | nil => simp at hlog
  | @snoc log e h he ih =>
    rcases List.eq_nil_or_concat after with rfl | ⟨after', x, rfl⟩
    · obtain ⟨rfl, hlast⟩ := List.append_inj' hlog rfl
      simp only [List.cons.injEq, and_true] at hlast
      exact he id hlast
    · rw [List.concat_eq_append, ← List.cons_append, ← List.append_assoc] at hlog
      exact ih (List.append_inj' hlog rfl).1

/-- Event ids are unique, a pending row has attempts left, a delivered row is logged as such, and
deliveries are justified. -/
structure OutboxInv (policy : BackoffPolicy) (w : World) : Prop where
  keys : (w.tables.outbox.map OutboxRecord.eventId).Nodup
  live : ∀ row ∈ w.tables.outbox, row.status = .pending → row.attempts < policy.maxAttempts
  logged : ∀ row ∈ w.tables.outbox, row.status = .delivered → .delivered row.eventId ∈ w.log
  justified : Justified w.log

/-- Every handing over is charged to a stored row, and no row was charged more than the budget. -/
structure Charged (policy : BackoffPolicy) (w : World) : Prop where
  stored : ∀ id, .handed id ∈ w.log → ∃ row ∈ w.tables.outbox, row.eventId = id
  charged : ∀ row ∈ w.tables.outbox, w.log.count (.handed row.eventId) ≤ row.attempts
  budget : ∀ row ∈ w.tables.outbox, row.attempts ≤ policy.maxAttempts

/-! ### Rewriting a row -/

section Rewrite

variable {db : Tables} {id : String} {f : OutboxRecord → OutboxRecord}

lemma Tables.rewrite_ids (db : Tables) (id : String) (hf : ∀ r, (f r).eventId = r.eventId) :
    (db.rewrite id f).outbox.map OutboxRecord.eventId = db.outbox.map OutboxRecord.eventId := by
  exact map_rewrite hf (fun r => r.eventId = id) db.outbox

lemma Tables.mem_rewrite {r : OutboxRecord} (h : r ∈ (db.rewrite id f).outbox) :
    (∃ r₀ ∈ db.outbox, r₀.eventId = id ∧ r = f r₀) ∨ (r ∈ db.outbox ∧ r.eventId ≠ id) := by
  obtain ⟨r₀, hr₀, rfl⟩ := List.mem_map.mp h
  split
  case isTrue heq => exact .inl ⟨r₀, hr₀, heq, rfl⟩
  case isFalse hne => exact .inr ⟨hr₀, hne⟩

lemma Tables.mem_rewrite_of_ne {r : OutboxRecord} (h : r ∈ db.outbox) (hne : r.eventId ≠ id) :
    r ∈ (db.rewrite id f).outbox :=
  List.mem_map.mpr ⟨r, h, if_neg hne⟩

lemma Tables.mem_rewrite_self {r : OutboxRecord} (h : r ∈ db.outbox) (heq : r.eventId = id) :
    f r ∈ (db.rewrite id f).outbox :=
  List.mem_map.mpr ⟨r, h, if_pos heq⟩

lemma Tables.getOutboxEvent_of_mem (hkeys : (db.outbox.map OutboxRecord.eventId).Nodup)
    {r : OutboxRecord} (h : r ∈ db.outbox) : db.getOutboxEvent r.eventId = some r :=
  find?_of_key hkeys h

end Rewrite

/-! ### One row preserves it -/

section Evidence

variable {policy : BackoffPolicy} {row : OutboxRecord} {outcome : Outcome}
  {status : OutboxStatus} {entries : List Entry}

lemma Evidence.attempts_lt (h : Evidence policy row outcome .pending entries) :
    row.attempts + 1 < policy.maxAttempts := by
  cases h
  assumption

lemma Evidence.delivered_mem (h : Evidence policy row outcome .delivered entries) :
    .delivered row.eventId ∈ entries := by
  cases h <;> simp

lemma justified_append_handed {log entries : List Entry} {id : String} (h : Justified log)
    (hentries : entries = [] ∨ entries = [.handed id]) : Justified (log ++ entries) := by
  rcases hentries with rfl | rfl
  · rwa [List.append_nil]
  · exact h.snoc fun _ he => by cases he

lemma Evidence.justified (h : Evidence policy row outcome status entries) {log : List Entry}
    (hlog : Justified log) : Justified (log ++ entries) := by
  cases h with
  | delivered =>
    have h₁ : Justified (log ++ [.handed row.eventId]) := hlog.snoc fun _ he => by cases he
    have h₂ : Justified (log ++ [.handed row.eventId] ++ [.acked row.eventId]) :=
      h₁.snoc fun _ he => by cases he
    have h₃ := h₂.snoc (e := .delivered row.eventId) fun id he => by
      cases he
      exact .inl (by simp)
    simpa using h₃
  | skipped =>
    have h₁ : Justified (log ++ [.found row.eventId]) := hlog.snoc fun _ he => by cases he
    have h₂ := h₁.snoc (e := .delivered row.eventId) fun id he => by
      cases he
      exact .inr (by simp)
    simpa using h₂
  | retried _ _ hentries => exact justified_append_handed hlog hentries
  | dead _ hentries => exact justified_append_handed hlog hentries

lemma Evidence.count_handed (h : Evidence policy row outcome status entries) (id : String) :
    entries.count (.handed id) ≤ if id = row.eventId then 1 else 0 := by
  have hshort : ∀ es : List Entry, es = [] ∨ es = [.handed row.eventId] →
      es.count (.handed id) ≤ if id = row.eventId then 1 else 0 := by
    rintro es (rfl | rfl)
    · simp
    · by_cases hid : id = row.eventId
      · simp [hid]
      · simp [hid, Ne.symm hid]
  cases h with
  | delivered =>
    by_cases hid : id = row.eventId
    · simp [hid]
    · simp [hid, Ne.symm hid]
  | skipped => simp
  | retried _ _ hentries => exact hshort _ hentries
  | dead _ hentries => exact hshort _ hentries

end Evidence

section Step

variable {policy : BackoffPolicy} {env : Surroundings} {row : OutboxRecord} {w w' : World}
  {r : Except DbError Outcome}

lemma RowStep.inv (hstep : RowStep policy env row w r w') (h : OutboxInv policy w) :
    OutboxInv policy w' := by
  cases hstep with
  | raised e hlt hstamp entries hentries =>
    exact ⟨h.keys, h.live, fun row hrow hs => List.mem_append_left _ (h.logged row hrow hs),
      justified_append_handed h.justified hentries⟩
  | @marked outcome status entries f hf he =>
    refine ⟨?_, ?_, ?_, he.justified h.justified⟩
    · rw [Tables.rewrite_ids _ _ hf.eventId]
      exact h.keys
    · intro r hr hpend
      rcases Tables.mem_rewrite hr with ⟨r₀, -, -, rfl⟩ | ⟨hr, -⟩
      · rw [hf.status] at hpend
        subst hpend
        rw [hf.attempts]
        exact he.attempts_lt
      · exact h.live r hr hpend
    · intro r hr hdel
      rcases Tables.mem_rewrite hr with ⟨r₀, -, hid, rfl⟩ | ⟨hr, -⟩
      · rw [hf.status] at hdel
        subst hdel
        rw [hf.eventId, hid]
        exact List.mem_append_right _ he.delivered_mem
      · exact List.mem_append_left _ (h.logged r hr hdel)

lemma RowStep.frame (hstep : RowStep policy env row w r w') {r₀ : OutboxRecord}
    (hr₀ : r₀ ∈ w.tables.outbox) (hne : r₀.eventId ≠ row.eventId) : r₀ ∈ w'.tables.outbox := by
  cases hstep with
  | raised => exact hr₀
  | marked => exact Tables.mem_rewrite_of_ne hr₀ hne

lemma RowStep.charged {outcome : Outcome} (hstep : RowStep policy env row w (.ok outcome) w')
    (h : OutboxInv policy w) (hc : Charged policy w) (hrow : row ∈ w.tables.outbox)
    (hpend : row.status = .pending) : Charged policy w' := by
  cases hstep with
  | @marked _ status entries f hf he =>
    refine ⟨?_, ?_, ?_⟩
    · intro id hid
      have hstored : ∃ r ∈ w.tables.outbox, r.eventId = id := by
        rcases List.mem_append.mp hid with hid | hid
        · exact hc.stored id hid
        · have hpos := List.count_pos_iff.mpr hid
          have hle := he.count_handed id
          by_cases heq : id = row.eventId
          · exact ⟨row, hrow, heq.symm⟩
          · rw [if_neg heq] at hle
            omega
      have hids := Tables.rewrite_ids w.tables row.eventId hf.eventId
      simpa only [← List.mem_map, hids] using hstored
    · intro r hr
      rw [List.count_append]
      have hle := he.count_handed r.eventId
      rcases Tables.mem_rewrite hr with ⟨r₀, -, hid, rfl⟩ | ⟨hr, hne⟩
      · rw [hf.eventId, hid] at hle ⊢
        rw [hf.attempts]
        have hrow' := hc.charged row hrow
        simp only [if_true] at hle
        omega
      · rw [if_neg hne] at hle
        have hr' := hc.charged r hr
        omega
    · intro r hr
      rcases Tables.mem_rewrite hr with ⟨r₀, -, -, rfl⟩ | ⟨hr, -⟩
      · rw [hf.attempts]
        exact h.live row hrow hpend
      · exact hc.budget r hr

/-- The row just handled: delivered, dead, or pending with one more attempt; a malformed one is
dead. -/
structure Fate (rt : Runtime) (env : Surroundings) (row row' : OutboxRecord) : Prop where
  eventId : row'.eventId = row.eventId
  attempts : row'.attempts = row.attempts + 1
  malformed : Malformed rt env row → row'.status = .dead

lemma deliverRow_fate {rt : Runtime} {outcome : Outcome} (h : OutboxInv policy w)
    (hrow : row ∈ w.tables.outbox) (hpend : row.status = .pending)
    (hr : deliverRow rt policy env row w = (.ok outcome, w')) :
    ∃ row' ∈ w'.tables.outbox, Fate rt env row row' := by
  have hget := Tables.getOutboxEvent_of_mem h.keys hrow
  have hstep := deliverRow_step rt policy env hget hpend
  have hmal : Malformed rt env row → outcome = .dead := by
    intro hmal
    have hdead : (deliverRow rt policy env row w).1 = .ok .dead :=
      deliverRow_malformed hmal hget hpend
    rw [hr] at hdead
    exact Except.ok.inj hdead
  rw [hr] at hstep
  cases hstep with
  | @marked _ status entries f hf he =>
    refine ⟨f row, Tables.mem_rewrite_self hrow rfl, hf.eventId row, hf.attempts row, ?_⟩
    intro hm
    rw [hf.status]
    have hout := hmal hm
    subst hout
    cases he
    rfl

end Step

/-! ### The drain -/

/-- The rows still to handle: stored, pending, and of distinct ids. -/
structure Ready (rows : List OutboxRecord) (w : World) : Prop where
  keys : (rows.map OutboxRecord.eventId).Nodup
  stored : ∀ row ∈ rows, row ∈ w.tables.outbox
  pending : ∀ row ∈ rows, row.status = .pending

lemma ready_pendingOutboxEvents {w : World} (now : String) (limit : Option ℤ)
    (hkeys : (w.tables.outbox.map OutboxRecord.eventId).Nodup) :
    Ready (pendingOutboxEvents now limit w.tables) w := by
  have hsub := limited_sublist limit ((w.tables.outbox.filter (isDue now)).mergeSort createdBefore)
  have hmem : ∀ row ∈ pendingOutboxEvents now limit w.tables,
      row ∈ w.tables.outbox ∧ row.status = .pending := by
    intro row hrow
    have hdue := List.mem_mergeSort.mp (hsub.subset hrow)
    simp only [List.mem_filter, isDue, decide_eq_true_eq] at hdue
    exact ⟨hdue.1, hdue.2.1⟩
  refine ⟨?_, fun row hrow => (hmem row hrow).1, fun row hrow => (hmem row hrow).2⟩
  refine List.Nodup.sublist (hsub.map _) ?_
  rw [((List.mergeSort_perm _ _).map _).nodup_iff]
  exact hkeys.sublist (List.filter_sublist.map _)

section Drain

variable {rt : Runtime} {policy : BackoffPolicy} {env : Surroundings}

lemma Ready.tail {row : OutboxRecord} {rows : List OutboxRecord} {w w' : World}
    {r : Except DbError Outcome} (h : Ready (row :: rows) w)
    (hstep : RowStep policy env row w r w') : Ready rows w' := by
  have hkeys := List.nodup_cons.mp h.keys
  refine ⟨hkeys.2, ?_, fun r hr => h.pending r (List.mem_cons_of_mem _ hr)⟩
  intro r hr
  refine hstep.frame (h.stored r (List.mem_cons_of_mem _ hr)) ?_
  intro heq
  exact hkeys.1 (heq ▸ List.mem_map_of_mem hr)

lemma drainRows_inv (rt : Runtime) (env : Surroundings) (rows : List OutboxRecord)
    (report : DrainReport) {w : World}
    (h : OutboxInv policy w) (hready : Ready rows w) :
    OutboxInv policy (drainRows rt policy env rows report w).2 ∧
      ∀ r ∈ w.tables.outbox, r.eventId ∉ rows.map OutboxRecord.eventId →
        r ∈ (drainRows rt policy env rows report w).2.tables.outbox := by
  induction rows generalizing report w with
  | nil => exact ⟨h, fun r hr _ => hr⟩
  | cons row rows ih =>
    have hrow := hready.stored row (List.mem_cons_self ..)
    have hget := Tables.getOutboxEvent_of_mem h.keys hrow
    have hstep := deliverRow_step rt policy env hget (hready.pending row (List.mem_cons_self ..))
    simp only [drainRows]
    rcases hr : deliverRow rt policy env row w with ⟨r, w'⟩
    rw [hr] at hstep
    have hframe : ∀ r₀ ∈ w.tables.outbox, r₀.eventId ∉ (row :: rows).map OutboxRecord.eventId →
        r₀ ∈ w'.tables.outbox ∧ r₀.eventId ∉ rows.map OutboxRecord.eventId := by
      intro r₀ hr₀ hnot
      simp only [List.map_cons, List.mem_cons, not_or] at hnot
      exact ⟨hstep.frame hr₀ hnot.1, hnot.2⟩
    cases r with
    | error e => exact ⟨hstep.inv h, fun r₀ hr₀ hnot => (hframe r₀ hr₀ hnot).1⟩
    | ok outcome =>
      obtain ⟨hinv, hkeep⟩ := ih (report.count outcome) (hstep.inv h) (hready.tail hstep)
      refine ⟨hinv, fun r₀ hr₀ hnot => ?_⟩
      obtain ⟨hmem, hnot'⟩ := hframe r₀ hr₀ hnot
      exact hkeep r₀ hmem hnot'

/-- Every retry stamp this drain may have to compute can be computed. -/
def StampsComputable (policy : BackoffPolicy) (env : Surroundings) : Prop :=
  ∀ eventId attempts, 1 ≤ attempts → attempts < policy.maxAttempts →
    ∃ stamp, policy.nextRetryAt attempts (env.failedAt eventId) = .ok stamp

lemma deliverRow_returns (hstamps : StampsComputable policy env) {row : OutboxRecord} {w : World}
    (hget : w.tables.getOutboxEvent row.eventId = some row) (hpend : row.status = .pending) :
    ∃ outcome, (deliverRow rt policy env row w).1 = .ok outcome := by
  have hstep := deliverRow_step rt policy env hget hpend
  generalize (deliverRow rt policy env row w).1 = r at hstep
  generalize (deliverRow rt policy env row w).2 = w' at hstep
  cases hstep with
  | @marked outcome => exact ⟨outcome, rfl⟩
  | raised e hlt hstamp =>
    obtain ⟨stamp, hok⟩ := hstamps row.eventId (row.attempts + 1) (Nat.le_add_left ..) hlt
    rw [hok] at hstamp
    cases hstamp

lemma DrainReport.examined_count (report : DrainReport) (outcome : Outcome) :
    (report.count outcome).examined = report.examined + 1 := by
  cases outcome <;> simp only [count, examined] <;> omega

/-- With computable stamps the loop returns, counts every row it was given, charges every handing
over, and settles the fate of every row. -/
lemma drainRows_returns (rt : Runtime) (hstamps : StampsComputable policy env)
    (rows : List OutboxRecord) (report : DrainReport) {w : World} (h : OutboxInv policy w) (hc : Charged policy w)
    (hready : Ready rows w) :
    ∃ report' w', drainRows rt policy env rows report w = (.ok report', w') ∧
      report'.examined = report.examined + rows.length ∧ Charged policy w' ∧
      ∀ row ∈ rows, ∃ row' ∈ w'.tables.outbox, Fate rt env row row' := by
  induction rows generalizing report w with
  | nil => exact ⟨report, w, rfl, rfl, hc, by simp⟩
  | cons row rows ih =>
    have hrow := hready.stored row (List.mem_cons_self ..)
    have hpend := hready.pending row (List.mem_cons_self ..)
    have hget := Tables.getOutboxEvent_of_mem h.keys hrow
    have hstep := deliverRow_step rt policy env hget hpend
    obtain ⟨outcome, hout⟩ : ∃ outcome, (deliverRow rt policy env row w).1 = .ok outcome :=
      deliverRow_returns hstamps hget hpend
    rcases hr : deliverRow rt policy env row w with ⟨r, w₁⟩
    rw [hr] at hstep hout
    cases hout
    have htail := hready.tail hstep
    obtain ⟨report', w', hrun, hcount, hc', hfate⟩ :=
      ih (report.count outcome) (hstep.inv h) (hstep.charged h hc hrow hpend) htail
    refine ⟨report', w', ?_, ?_, hc', ?_⟩
    · simp only [drainRows, hr]
      exact hrun
    · rw [hcount, DrainReport.examined_count, List.length_cons]
      omega
    · intro row₀ hrow₀
      rcases List.mem_cons.mp hrow₀ with rfl | hrow₀
      · obtain ⟨row', hmem, hf⟩ := deliverRow_fate h hrow hpend hr
        refine ⟨row', ?_, hf⟩
        have hkeep :=
          (drainRows_inv rt env rows (report.count outcome) (hstep.inv h) htail).2 row' hmem
        rw [hrun] at hkeep
        refine hkeep ?_
        rw [hf.eventId]
        exact (List.nodup_cons.mp hready.keys).1
      · exact hfate row₀ hrow₀

end Drain

/-! ### Runs of the publisher -/

/-- A producer queues an event, or the one publisher process drains the outbox. -/
inductive PublisherCall (P : Type)
  | enqueue (o : Oracle DbError) (a : EnqueueOutboxEvent P)
  | drain (env : Surroundings) (limit : Option ℤ)

/-- The world after a call, whether it returned or raised. -/
def PublisherCall.perform (rt : Runtime) (policy : BackoffPolicy)
    (dumps : P → Except DbError String) (w : World) : PublisherCall P → World
  | enqueue o a =>
    { w with tables := (enqueueOutboxEvent dumps a o { store := w.tables }).2.store }
  | drain env limit => (Control.drain rt policy env limit w).2

def performPublisher (rt : Runtime) (policy : BackoffPolicy) (dumps : P → Except DbError String)
    (calls : List (PublisherCall P)) (w : World) : World :=
  calls.foldl (fun w call => call.perform rt policy dumps w) w

section Runs

variable (rt : Runtime) {policy : BackoffPolicy} (dumps : P → Except DbError String)

lemma OutboxInv.enqueue {w : World} (h : OutboxInv policy w) (o : Oracle DbError)
    (a : EnqueueOutboxEvent P) :
    let w' := (PublisherCall.enqueue o a).perform rt policy dumps w
    OutboxInv policy w' ∧ (Charged policy w → Charged policy w') ∧
      ∀ r ∈ w.tables.outbox, r ∈ w'.tables.outbox := by
  intro w'
  obtain ⟨-, hsame | ⟨row, ⟨body, createdAt, -, -, hrow⟩, hnew, happ⟩⟩ :=
    enqueueOutboxEvent_commits dumps a o { store := w.tables } rfl
  · have hw : w' = w := by simp only [w', PublisherCall.perform, hsame]
    rw [hw]
    exact ⟨h, id, fun _ hr => hr⟩
  · have hout : w'.tables.outbox = w.tables.outbox ++ [row] := by
      simp only [w', PublisherCall.perform, happ]
    have hlog : w'.log = w.log := rfl
    have hstatus : row.status = .pending := by rw [hrow]; rfl
    have hattempts : row.attempts = 0 := by rw [hrow]; rfl
    have hfresh : ∀ r ∈ w.tables.outbox, r.eventId ≠ row.eventId := by
      simpa [Tables.getOutboxEvent] using hnew
    refine ⟨⟨?_, ?_, ?_, ?_⟩, fun hc => ⟨?_, ?_, ?_⟩, ?_⟩
    · rw [hout, List.map_append, List.nodup_append]
      refine ⟨h.keys, by simp, ?_⟩
      intro x hx y hy
      obtain ⟨r, hr, rfl⟩ := List.mem_map.mp hx
      simp only [List.map_cons, List.map_nil, List.mem_singleton] at hy
      rw [hy]
      exact hfresh r hr
    · intro r hr hpend
      rw [hout, List.mem_append, List.mem_singleton] at hr
      rcases hr with hr | rfl
      · exact h.live r hr hpend
      · rw [hattempts]
        exact policy.one_le_maxAttempts
    · intro r hr hdel
      rw [hout, List.mem_append, List.mem_singleton] at hr
      rcases hr with hr | rfl
      · exact h.logged r hr hdel
      · rw [hstatus] at hdel
        cases hdel
    · exact h.justified
    · intro id hid
      obtain ⟨r, hr, hid'⟩ := hc.stored id hid
      exact ⟨r, by rw [hout]; exact List.mem_append_left _ hr, hid'⟩
    · intro r hr
      rw [hout, List.mem_append, List.mem_singleton] at hr
      rcases hr with hr | rfl
      · exact hc.charged r hr
      · -- nothing was handed over under an id that was not stored
        rw [hlog, List.count_eq_zero_of_not_mem]
        · exact Nat.zero_le _
        · intro hid
          obtain ⟨r', hr', heq⟩ := hc.stored _ hid
          exact hfresh r' hr' heq
    · intro r hr
      rw [hout, List.mem_append, List.mem_singleton] at hr
      rcases hr with hr | rfl
      · exact hc.budget r hr
      · rw [hattempts]
        exact Nat.zero_le _
    · intro r hr
      rw [hout]
      exact List.mem_append_left _ hr

lemma OutboxInv.drain {w : World} (h : OutboxInv policy w) (env : Surroundings)
    (limit : Option ℤ) :
    OutboxInv policy (Control.drain rt policy env limit w).2 ∧
      ∀ r ∈ w.tables.outbox, r.status ≠ .pending →
        r ∈ (Control.drain rt policy env limit w).2.tables.outbox := by
  simp only [Control.drain]
  cases env.connectError with
  | some e => exact ⟨h, fun r hr _ => hr⟩
  | none =>
    have hready := ready_pendingOutboxEvents (isoZ env.now) limit h.keys
    obtain ⟨hinv, hkeep⟩ := drainRows_inv rt env _ {} h hready
    refine ⟨hinv, fun r hr hsettled => hkeep r hr ?_⟩
    intro hmem
    obtain ⟨r', hr', heq⟩ := List.mem_map.mp hmem
    have hsame := List.inj_on_of_nodup_map h.keys (hready.stored r' hr') hr heq
    exact hsettled (hsame ▸ hready.pending r' hr')

lemma drain_returns {w : World} (h : OutboxInv policy w) (hc : Charged policy w)
    {env : Surroundings} (hstamps : StampsComputable policy env) (limit : Option ℤ) :
    Charged policy (Control.drain rt policy env limit w).2 ∧
      (env.connectError = none →
        ∃ report, (Control.drain rt policy env limit w).1 = .ok report ∧
          report.examined = (pendingOutboxEvents (isoZ env.now) limit w.tables).length ∧
          ∀ row ∈ pendingOutboxEvents (isoZ env.now) limit w.tables,
            ∃ row' ∈ (Control.drain rt policy env limit w).2.tables.outbox,
              Fate rt env row row') := by
  simp only [Control.drain]
  cases env.connectError with
  | some e => exact ⟨hc, fun hnone => by cases hnone⟩
  | none =>
    obtain ⟨report, w', hrun, hcount, hc', hfate⟩ := drainRows_returns rt hstamps
      (pendingOutboxEvents (isoZ env.now) limit w.tables) {} h hc
      (ready_pendingOutboxEvents (isoZ env.now) limit h.keys)
    rw [hrun]
    exact ⟨hc', fun _ => ⟨report, rfl, by simpa [DrainReport.examined] using hcount, hfate⟩⟩

lemma PublisherCall.perform_inv (call : PublisherCall P) {w : World} (h : OutboxInv policy w) :
    OutboxInv policy (call.perform rt policy dumps w) ∧
      ∀ r ∈ w.tables.outbox, r.status ≠ .pending →
        r ∈ (call.perform rt policy dumps w).tables.outbox := by
  cases call with
  | enqueue o a =>
    obtain ⟨hinv, -, hkeep⟩ := h.enqueue rt dumps o a
    exact ⟨hinv, fun r hr _ => hkeep r hr⟩
  | drain env limit => exact h.drain rt env limit

lemma performPublisher_inv (calls : List (PublisherCall P)) {w : World}
    (h : OutboxInv policy w) :
    OutboxInv policy (performPublisher rt policy dumps calls w) ∧
      ∀ r ∈ w.tables.outbox, r.status ≠ .pending →
        r ∈ (performPublisher rt policy dumps calls w).tables.outbox := by
  induction calls generalizing w with
  | nil => exact ⟨h, fun r hr _ => hr⟩
  | cons call calls ih =>
    obtain ⟨hinv, hkeep⟩ := call.perform_inv rt dumps h
    obtain ⟨hinv', hkeep'⟩ := ih hinv
    exact ⟨hinv', fun r hr hs => hkeep' r (hkeep r hr hs) hs⟩

lemma performPublisher_charged (calls : List (PublisherCall P)) {w : World}
    (hstamps : ∀ env limit, .drain env limit ∈ calls → StampsComputable policy env)
    (h : OutboxInv policy w) (hc : Charged policy w) :
    Charged policy (performPublisher rt policy dumps calls w) := by
  induction calls generalizing w with
  | nil => exact hc
  | cons call calls ih =>
    refine ih (fun env limit hmem => hstamps env limit (List.mem_cons_of_mem _ hmem))
      (call.perform_inv rt dumps h).1 ?_
    cases call with
    | enqueue o a => exact (h.enqueue rt dumps o a).2.1 hc
    | drain env limit =>
      exact (drain_returns rt h hc (hstamps env limit (List.mem_cons_self ..)) limit).1

end Runs

/-- What holds of the publisher in a world: deliveries come after their evidence, a pending row has
attempts left, no event was handed over more often than the budget, settled rows stay as they are,
and the next drain either cannot connect and changes nothing or accounts for every row it
examines. -/
structure PublisherSafe (rt : Runtime) (policy : BackoffPolicy) (dumps : P → Except DbError String)
    (w : World) : Prop where
  delivered : ∀ row ∈ w.tables.outbox, row.status = .delivered →
    .delivered row.eventId ∈ w.log
  evidence : ∀ before after id, w.log = before ++ .delivered id :: after →
    .acked id ∈ before ∨ .found id ∈ before
  live : ∀ row ∈ w.tables.outbox, row.status = .pending → row.attempts < policy.maxAttempts
  handed : ∀ id, w.log.count (.handed id) ≤ policy.maxAttempts
  settled : ∀ more : List (PublisherCall P), ∀ row ∈ w.tables.outbox, row.status ≠ .pending →
    (performPublisher rt policy dumps more w).tables.getOutboxEvent row.eventId = some row
  unreachable : ∀ env limit e, env.connectError = some e →
    ∃ report, drain rt policy env limit w = (.ok report, w) ∧ report.examined = 0
  accounted : ∀ env limit, env.connectError = none → StampsComputable policy env →
    ∃ report, (drain rt policy env limit w).1 = .ok report ∧
      report.examined = (pendingOutboxEvents (isoZ env.now) limit w.tables).length ∧
      ∀ row ∈ pendingOutboxEvents (isoZ env.now) limit w.tables,
        ∃ row' ∈ (drain rt policy env limit w).2.tables.outbox, Fate rt env row row'

/-- From an empty outbox, any calls whose drains can compute their retry stamps keep the publisher
safe. -/
theorem outbox_publisher_safe (rt : Runtime) (policy : BackoffPolicy)
    (dumps : P → Except DbError String) (tables : Tables) (hempty : tables.outbox = [])
    (calls : List (PublisherCall P))
    (hstamps : ∀ env limit, .drain env limit ∈ calls → StampsComputable policy env) :
    PublisherSafe rt policy dumps (performPublisher rt policy dumps calls { tables := tables }) := by
  have hinv₀ : OutboxInv policy { tables := tables } :=
    ⟨by simp [hempty], by simp [hempty], by simp [hempty], .nil⟩
  have hc₀ : Charged policy { tables := tables } :=
    ⟨by simp, by simp [hempty], by simp [hempty]⟩
  have hinv := (performPublisher_inv rt dumps calls hinv₀).1
  have hc := performPublisher_charged rt dumps calls hstamps hinv₀ hc₀
  generalize performPublisher rt policy dumps calls { tables := tables } = w at hinv hc
  refine ⟨hinv.logged, fun before after id hlog => hinv.justified.split hlog, hinv.live,
    ?_, ?_, ?_, fun env limit hconn hs => (drain_returns rt hinv hc hs limit).2 hconn⟩
  · intro id
    by_cases hid : .handed id ∈ w.log
    · obtain ⟨row, hrow, rfl⟩ := hc.stored id hid
      exact (hc.charged row hrow).trans (hc.budget row hrow)
    · rw [List.count_eq_zero_of_not_mem hid]
      exact Nat.zero_le _
  · intro more row hrow hsettled
    obtain ⟨hinv', hkeep⟩ := performPublisher_inv rt dumps more hinv
    exact Tables.getOutboxEvent_of_mem hinv'.keys (hkeep row hrow hsettled)
  · intro env limit e hconn
    refine ⟨{ streamError := e.1 ++ ": " ++ e.2 }, ?_, rfl⟩
    simp only [drain, hconn]

/-! ### The default policy, and one whose power overflows -/

lemma after_eq_ok {now delta : ℕ} {seconds : ℚ}
    (hround : roundHalfEven (seconds * 1000000) = delta)
    (hfits : now + delta ≤ 315537897599999999) :
    BackoffPolicy.after now (.finite seconds) = .ok (now + delta) := by
  have hmax : (maxInstant : ℤ) = 315537897599999999 := by decide
  simp only [BackoffPolicy.after, hround, hmax]
  rw [if_neg, if_neg]
  · rfl
  · omega
  · rw [abs_of_nonneg (by omega)]
    omega
 
lemma default_stampsComputable {env : Surroundings}
    (hfits : ∀ eventId, env.failedAt eventId + 900000000 ≤ 315537897599999999) :
    StampsComputable {} env := by
  intro eventId attempts hpos hlt
  have hfit := hfits eventId
  have hdelay : ∃ (seconds : ℚ) (delta : ℕ),
      BackoffPolicy.delayFor {} attempts = .ok (.finite seconds) ∧
      roundHalfEven (seconds * 1000000) = delta ∧ delta ≤ 900000000 := by
    change attempts < 5 at hlt
    interval_cases attempts
    · exact ⟨2, 2000000, by decide +kernel⟩
    · exact ⟨6, 6000000, by decide +kernel⟩
    · exact ⟨18, 18000000, by decide +kernel⟩
    · exact ⟨54, 54000000, by decide +kernel⟩
  obtain ⟨seconds, delta, hdelay, hround, hle⟩ := hdelay
  refine ⟨isoZ (env.failedAt eventId + delta), ?_⟩
  have hfit' : env.failedAt eventId + delta ≤ 315537897599999999 :=
    (Nat.add_le_add_left hle _).trans hfit
  simp only [BackoffPolicy.nextRetryAt, hdelay]
  change (BackoffPolicy.after (env.failedAt eventId) (.finite seconds) >>=
    fun moment => pure (isoZ moment)) = _
  rw [after_eq_ok hround hfit']
  rfl

/-- The text of an object of strings and objects, as the encoder writes it. -/
def renderPayload (fields : Dict (String ⊕ Dict String)) : String :=
  let object (items : List (String × String)) : String :=
    "\x7b" ++ ", ".intercalate (items.map fun kv => "\"" ++ kv.1 ++ "\": " ++ kv.2) ++ "\x7d"
  let quoted (s : String) : String := "\"" ++ s ++ "\""
  object (fields.map fun kv => (kv.1, match kv.2 with
    | .inl s      => quoted s
    | .inr nested => object (nested.map fun kv => (kv.1, quoted kv.2))))

def samplePayload : Dict (String ⊕ Dict String) :=
  let filled (keys : List String) : Dict String := keys.map fun key => (key, "x")
  [("event", .inr (filled ["content_hash", "entity_id", "knowledge_id", "occurred_at",
      "operation", "schema_version", "source_revision", "source_uri"])),
    ("kind", .inl kindKnowledgeEvent), ("knowledge_id", .inl "x"),
    ("payload_version", .inl payloadVersion),
    ("record", .inr (filled ["acl_scope"] ++ [("authority", "SOURCE")] ++
      filled ["branch", "commit_sha", "contains_sensitive_data", "content_hash",
        "embedding_version", "entity_id", "evidence_class", "extractor_version", "indexed_at",
        "knowledge_id", "language", "logical_locator", "observed_at", "outcome_id",
        "repository_id", "source_type", "source_uri", "text", "token_count", "valid_from",
        "worktree_id"])),
    ("source_type", .inl "code")]

/-- The built-ins on the texts of this run. -/
def sampleRuntime : Runtime where
  loads text :=
    if text = renderPayload samplePayload then
      .ok (.obj (samplePayload.map fun kv => (kv.1, match kv.2 with
        | .inl s      => .str s
        | .inr nested => .obj (nested.map fun kv => (kv.1, .str kv.2)))))
    else .error ("JSONDecodeError", "")
  repr _ := ""
  upper text := text
  lower text := text

/-- Four attempts, and a factor whose square is beyond the largest float. -/
def steepPolicy : BackoffPolicy where
  maxAttempts := 4
  factor := .finite (10 ^ 200)
  one_le_factor := by decide +kernel

/-- One event, then five drains an hour apart whose every publish is refused. -/
def refusedDrains : List (PublisherCall String) :=
  .enqueue .quiet { runId := "run-a", payload := renderPayload samplePayload
                    eventId := some "evt-a", createdAt := some "2026-01-01T00:00:00Z" } ::
    [1, 2, 3, 4, 5].map fun hour => .drain
      { now := 63902822400000000 + hour * 3600000000
        failedAt := fun _ => 63902822400000000 + hour * 3600000000
        markedAt := fun _ => ""
        checkpointed := fun _ => .ok false
        writeArtifact := fun _ => .ok ()
        publish := fun _ => .error ("ConnectionError", "refused") } none

theorem outbox_publisher_safe_default :
    PublisherSafe sampleRuntime {} .ok
      (performPublisher sampleRuntime {} .ok refusedDrains { tables := oneRunning.store }) := by
  refine outbox_publisher_safe sampleRuntime {} .ok oneRunning.store (by decide +kernel)
    refusedDrains ?_
  intro env limit hmem
  simp only [refusedDrains, List.map_cons, List.map_nil, List.mem_cons, reduceCtorEq, false_or,
    PublisherCall.drain.injEq, List.not_mem_nil, or_false] at hmem
  rcases hmem with ⟨rfl, -⟩ | ⟨rfl, -⟩ | ⟨rfl, -⟩ | ⟨rfl, -⟩ | ⟨rfl, -⟩
  all_goals exact default_stampsComputable fun _ => by norm_num

/-- The third failure cannot be recorded, so the event is handed over by every later drain. -/
theorem outbox_publisher_steep :
    oneRunning.store.outbox = [] ∧ ¬ PublisherSafe sampleRuntime steepPolicy .ok
      (performPublisher sampleRuntime steepPolicy .ok refusedDrains
        { tables := oneRunning.store }) := by
  refine ⟨by decide +kernel, fun hsafe => ?_⟩
  have hcount : (performPublisher sampleRuntime steepPolicy .ok refusedDrains
      { tables := oneRunning.store }).log.count (.handed "evt-a") = 5 := by decide +kernel
  have hle := hsafe.handed "evt-a"
  rw [hcount] at hle
  exact absurd hle (by decide)

end AgenticDynamics.Control
