import AgenticDynamics.Control.OutboxSafety

/-!
# What publishers do to the outbox

Whoever drains the outbox, and however often: the rows keep their place, their ids and their
creation stamps, and a delivered row is never touched again. Unlike the single publisher of
`OutboxSafety`, the one here may hold rows that are out of date.
-/

namespace AgenticDynamics.Control

open Python

/-- The columns the delivery order is computed from. -/
def OutboxRecord.key (row : OutboxRecord) : String × String := (row.createdAt, row.eventId)

/-- The rows stand where they stood, and the delivered ones are as they were. -/
structure Remarked (s t : Tables) : Prop where
  keys : t.outbox.map OutboxRecord.key = s.outbox.map OutboxRecord.key
  final : ∀ id row, s.getOutboxEvent id = some row → row.status = .delivered →
    t.getOutboxEvent id = some row

namespace Remarked

lemma refl (s : Tables) : Remarked s s := ⟨rfl, fun _ _ h _ => h⟩

lemma trans {s t u : Tables} (h : Remarked s t) (h' : Remarked t u) : Remarked s u :=
  ⟨h'.keys.trans h.keys,
    fun id row hrow hdel => h'.final id row (h.final id row hrow hdel) hdel⟩

lemma ids {s t : Tables} (h : Remarked s t) :
    t.outbox.map OutboxRecord.eventId = s.outbox.map OutboxRecord.eventId := by
  have hkeys := congrArg (List.map Prod.snd) h.keys
  simpa only [List.map_map, Function.comp_def, OutboxRecord.key] using hkeys

lemma isSome {s t : Tables} (h : Remarked s t) {id : String}
    (hrow : (s.getOutboxEvent id).isSome) : (t.getOutboxEvent id).isSome := by
  have hmem : ∀ db : Tables, (db.getOutboxEvent id).isSome ↔
      id ∈ db.outbox.map OutboxRecord.eventId := by
    intro db
    simp [Tables.getOutboxEvent]
  rw [hmem, h.ids, ← hmem]
  exact hrow

end Remarked

lemma updateOutbox_cases (eventId : String) (status : OutboxStatus)
    (nextRetryAt deliveredAt lastError : Option String) (db : Tables) :
    (db.getOutboxEvent eventId = none ∧
      updateOutbox eventId status nextRetryAt deliveredAt lastError db =
        .error (.unknownEvent eventId)) ∨
    (∃ current, db.getOutboxEvent eventId = some current ∧ current.status = .delivered ∧
      updateOutbox eventId status nextRetryAt deliveredAt lastError db =
        .error (.deliveredEvent eventId)) ∨
    ∃ current, db.getOutboxEvent eventId = some current ∧ current.status ≠ .delivered ∧
      updateOutbox eventId status nextRetryAt deliveredAt lastError db =
        .ok (db.rewrite eventId (remark current status nextRetryAt deliveredAt lastError)) := by
  cases hget : db.getOutboxEvent eventId with
  | none => exact .inl ⟨rfl, by simp only [updateOutbox, hget]⟩
  | some current =>
    by_cases hdel : current.status = .delivered
    · exact .inr (.inl ⟨current, rfl, hdel, by simp only [updateOutbox, hget, hdel, if_true]⟩)
    · refine .inr (.inr ⟨current, rfl, hdel, ?_⟩)
      simp only [updateOutbox, hget, hdel, if_false, Tables.updateOutbox]
      rfl

lemma updateOutbox_remarked {eventId : String} {status : OutboxStatus}
    {nextRetryAt deliveredAt lastError : Option String} {s t : Tables}
    (h : updateOutbox eventId status nextRetryAt deliveredAt lastError s = .ok t) :
    Remarked s t := by
  obtain ⟨-, hrefused⟩ | ⟨_, -, -, hrefused⟩ | ⟨current, hget, hlive, hok⟩ :=
    updateOutbox_cases eventId status nextRetryAt deliveredAt lastError s
  · rw [hrefused] at h
    cases h
  · rw [hrefused] at h
    cases h
  · rw [hok, Except.ok.injEq] at h
    rw [← h]
    constructor
    · simp only [Tables.rewrite, List.map_map]
      refine List.map_congr_left fun row _ => ?_
      simp only [Function.comp_apply]
      split <;> rfl
    · intro id row hrow hdel
      have hne : id ≠ eventId := by
        rintro rfl
        rw [hget] at hrow
        cases hrow
        exact hlive hdel
      simp only [Tables.getOutboxEvent, Tables.rewrite, List.find?_map] at hrow ⊢
      have hsame : ((fun r : OutboxRecord => decide (r.eventId = id)) ∘ fun r =>
          if r.eventId = eventId then
            remark current status nextRetryAt deliveredAt lastError r else r) =
          fun r => decide (r.eventId = id) := by
        funext r
        simp only [Function.comp_apply]
        split <;> rfl
      rw [hsame, hrow]
      have hid : row.eventId = id := by simpa using List.find?_some hrow
      simp [hid, hne]

/-! ### Handling a row -/

/-- The tables after a call, whether it returned or raised. -/
def KeepsRows (w : World) (run : Except DbError Outcome × World) : Prop :=
  Remarked w.tables run.2.tables

section Handling

variable (rt : Runtime) (policy : BackoffPolicy) (env : Surroundings) (row : OutboxRecord)
  (w : World)

lemma mark_keeps (w : World) (eventId : String) (status : OutboxStatus)
    (nextRetryAt deliveredAt lastError : Option String) (entries : List Entry)
    (outcome : Outcome) :
    KeepsRows w (w.mark (updateOutbox eventId status nextRetryAt deliveredAt lastError) entries
      outcome) := by
  unfold World.mark KeepsRows
  split
  · exact .refl _
  · exact updateOutbox_remarked ‹_›

lemma attempt_keeps : KeepsRows w (attempt rt env row w) := by
  unfold attempt
  split
  · exact Remarked.refl _
  · split
    · exact Remarked.refl _
    · exact mark_keeps (w.note _) _ _ _ _ _ _ _
    · split
      · exact Remarked.refl _
      · split
        · exact Remarked.refl _
        · exact mark_keeps ((w.note _).note _) _ _ _ _ _ _ _

/-- The two handlers of `_deliver_row`. -/
def handleFailure (exc : DbError) : Except DbError Outcome × World :=
  match exc with
  | .malformedPayload text =>
    w.mark (markOutboxDead row.eventId ("malformed payload: " ++ text)) [] .dead
  | exc => recordFailure rt policy env row exc w

lemma deliverRow_eq : deliverRow rt policy env row w =
    match attempt rt env row w with
    | (.ok outcome, w') => (.ok outcome, w')
    | (.error exc, w')  => handleFailure rt policy env row w' exc := by
  unfold deliverRow
  split
  · next h => rw [h]
  · next h => rw [h]; rfl
  · next exc w' hne h =>
    rw [h]
    cases exc with
    | malformedPayload text => exact absurd rfl (hne text)
    | _ => rfl

lemma handleFailure_keeps (exc : DbError) :
    KeepsRows w (handleFailure rt policy env row w exc) := by
  unfold handleFailure
  split
  · exact mark_keeps _ _ _ _ _ _ _ _
  · unfold recordFailure
    simp only
    split
    · exact mark_keeps _ _ _ _ _ _ _ _
    · split
      · exact Remarked.refl _
      · exact mark_keeps _ _ _ _ _ _ _ _

lemma deliverRow_keeps : KeepsRows w (deliverRow rt policy env row w) := by
  rw [deliverRow_eq]
  have hattempt := attempt_keeps rt env row w
  split
  · next h => rwa [h] at hattempt
  · next h =>
    rw [h] at hattempt
    exact hattempt.trans (handleFailure_keeps rt policy env row _ _)

lemma drainRows_keeps (rows : List OutboxRecord) (report : DrainReport) :
    Remarked w.tables (drainRows rt policy env rows report w).2.tables := by
  induction rows generalizing report w with
  | nil => exact .refl _
  | cons row rows ih =>
    have hrow := deliverRow_keeps rt policy env row w
    rw [drainRows]
    split
    · next h => rwa [h] at hrow
    · next h =>
      rw [h] at hrow
      exact hrow.trans (ih _ _)

lemma drain_keeps (limit : Option ℤ) :
    Remarked w.tables (drain rt policy env limit w).2.tables := by
  unfold drain
  split
  · exact .refl _
  · exact drainRows_keeps rt policy env w _ _

end Handling

end AgenticDynamics.Control
