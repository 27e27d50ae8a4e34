import Mathlib.Data.String.Basic
import AgenticDynamics.Control.OutboxMarks

/-!
# The order of delivery

A terminal write queues its events in the order of its payloads, and a later write after an
earlier one. `pending_outbox_events` sorts by creation stamp and event id, which the clock and the
id generator choose.
-/

namespace AgenticDynamics.Control

open Python

variable {P : Type}

/-! ### Runs with terminal writes -/

/-- A terminal write, or what other producers and the publisher do. -/
inductive OutboxCall (P : Type)
  | terminal (o : Oracle DbError) (a : RecordTerminalRun P)
  | other (call : PublisherCall P)

section Runs

variable (rt : Runtime) (policy : BackoffPolicy) (dumps : P → Except DbError String)

def OutboxCall.perform (w : World) : OutboxCall P → World
  | terminal o a =>
    { w with tables := (recordTerminalRun dumps a o { store := w.tables }).2.store }
  | other call   => call.perform rt policy dumps w

/-- The ids of the events a call queued for a terminal write, in the order of the payloads: a row
joins the table behind those it finds. -/
def OutboxCall.queued (w : World) : OutboxCall P → List String
  | terminal o a =>
    ((OutboxCall.perform rt policy dumps w (terminal o a)).tables.outbox.drop
      w.tables.outbox.length).map OutboxRecord.eventId
  | other _      => []

/-- The world after the calls, and the events of their terminal writes in the order of the
writes. -/
def performOutbox : List (OutboxCall P) → World → World × List String
  | [], w            => (w, [])
  | call :: calls, w =>
    let (w', ids) := performOutbox calls (call.perform rt policy dumps w)
    (w', call.queued rt policy dumps w ++ ids)

end Runs

/-- However many rows are asked for and whenever, the events come in the order of `ids`. -/
def InOrder (db : Tables) (ids : List String) : Prop :=
  ∀ now limit, (((pendingOutboxEvents now limit db).map OutboxRecord.eventId).filter
    (· ∈ ids)).Sublist ids

/-- The pending rows with these ids, in the order they were queued. -/
def queuedRows (db : Tables) (ids : List String) : List OutboxRecord :=
  db.outbox.filter fun row => row.status = .pending ∧ row.eventId ∈ ids

/-! ### Sorting -/

lemma createdBefore_trans (a b c : OutboxRecord) (hab : createdBefore a b)
    (hbc : createdBefore b c) : createdBefore a c := by
  simp only [createdBefore, decide_eq_true_eq] at *
  rcases hab with hab | ⟨hab, hid⟩
  · rcases hbc with hbc | ⟨hbc, -⟩
    · exact .inl (hab.trans hbc)
    · exact .inl (hbc ▸ hab)
  · rcases hbc with hbc | ⟨hbc, hid'⟩
    · exact .inl (hab ▸ hbc)
    · exact .inr ⟨hab.trans hbc, hid.trans hid'⟩

lemma createdBefore_total (a b : OutboxRecord) : createdBefore a b || createdBefore b a := by
  simp only [createdBefore, Bool.or_eq_true, decide_eq_true_eq]
  rcases lt_trichotomy a.createdAt b.createdAt with h | h | h
  · exact .inl (.inl h)
  · rcases le_total a.eventId b.eventId with hid | hid
    · exact .inl (.inr ⟨h, hid⟩)
    · exact .inr (.inr ⟨h.symm, hid⟩)
  · exact .inr (.inl h)

lemma eventId_eq_of_createdBefore {a b : OutboxRecord} (hab : createdBefore a b)
    (hba : createdBefore b a) : a.eventId = b.eventId := by
  simp only [createdBefore, decide_eq_true_eq] at hab hba
  rcases hab with hab | ⟨hab, hid⟩
  · rcases hba with hba | ⟨hba, -⟩
    · exact absurd hba hab.asymm
    · exact absurd hab (hba ▸ lt_irrefl _)
  · rcases hba with hba | ⟨-, hid'⟩
    · exact absurd hba (hab ▸ lt_irrefl _)
    · exact le_antisymm hid hid'

/-- The events of some ids, in the order in which they come. -/
def delivery (now : String) (limit : Option ℤ) (db : Tables) (ids : List String) :
    List OutboxRecord :=
  (pendingOutboxEvents now limit db).filter fun row => row.eventId ∈ ids

lemma delivery_sorted (now : String) (limit : Option ℤ) (db : Tables) (ids : List String) :
    (delivery now limit db ids).Pairwise fun a b => createdBefore a b := by
  apply List.Pairwise.filter
  apply List.Pairwise.sublist (limited_sublist limit _)
  exact List.pairwise_mergeSort createdBefore_trans createdBefore_total _

lemma delivery_perm (now : String) (db : Tables) (ids : List String) :
    (delivery now none db ids).Perm
      ((queuedRows db ids).filter fun row => row.nextRetryAt ≤ now) := by
  have hperm := (List.mergeSort_perm (db.outbox.filter (isDue now)) createdBefore).filter
    fun row => row.eventId ∈ ids
  refine hperm.trans (List.Perm.of_eq ?_)
  simp only [queuedRows, List.filter_filter]
  apply List.filter_congr
  intro row _
  simp only [isDue]
  grind

lemma eq_of_map_eventId {rows rows' stored : List OutboxRecord}
    (hkeys : (stored.map OutboxRecord.eventId).Nodup) (hrows : ∀ r ∈ rows, r ∈ stored)
    (hrows' : ∀ r ∈ rows', r ∈ stored)
    (hids : rows.map OutboxRecord.eventId = rows'.map OutboxRecord.eventId) : rows = rows' := by
  have hinj := List.inj_on_of_nodup_map hkeys
  induction rows generalizing rows' with
  | nil => exact (List.map_eq_nil_iff.mp hids.symm).symm
  | cons row rows ih =>
    cases rows' with
    | nil => simp at hids
    | cons row' rows' =>
      simp only [List.map_cons, List.cons.injEq] at hids
      rw [hinj (hrows row (by simp)) (hrows' row' (by simp)) hids.1,
        ih (fun r hr => hrows r (by simp [hr])) (fun r hr => hrows' r (by simp [hr])) hids.2]

lemma filter_mem_of_sublist {ids all : List String} (h : ids.Sublist all) (hnodup : all.Nodup) :
    all.filter (· ∈ ids) = ids := by
  induction h with
  | slnil => rfl
  | cons id h ih =>
    obtain ⟨hnew, hnodup⟩ := List.nodup_cons.mp hnodup
    rw [List.filter_cons_of_neg (by simpa using fun hid => hnew (h.subset hid)), ih hnodup]
  | cons_cons id h ih =>
    obtain ⟨hnew, hnodup⟩ := List.nodup_cons.mp hnodup
    rw [List.filter_cons_of_pos (by simp)]
    congr 1
    rw [← ih hnodup]
    apply List.filter_congr
    intro other hother
    have hne : other ≠ id := fun heq => hnew (heq ▸ hother)
    rw [ih hnodup]
    simp [hne]

/-- The rows of a world after some calls, with the events their terminal writes queued. -/
structure Queue (db : Tables) (ids : List String) : Prop where
  keys : (db.outbox.map OutboxRecord.eventId).Nodup
  queued : ids.Sublist (db.outbox.map OutboxRecord.eventId)

lemma Queue.queuedRows_ids {db : Tables} {ids : List String} (h : Queue db ids) :
    ((queuedRows db ids).map OutboxRecord.eventId).Sublist ids := by
  have hrows : (queuedRows db ids).Sublist (db.outbox.filter fun row => row.eventId ∈ ids) := by
    have hsplit : queuedRows db ids =
        (db.outbox.filter fun row => row.eventId ∈ ids).filter fun row => row.status = .pending := by
      simp [queuedRows, List.filter_filter]
    rw [hsplit]
    exact List.filter_sublist
  have hids : (db.outbox.filter fun row => row.eventId ∈ ids).map OutboxRecord.eventId = ids := by
    have hfilter := filter_mem_of_sublist h.queued h.keys
    rwa [List.filter_map] at hfilter
  have hsub := hrows.map OutboxRecord.eventId
  rwa [hids] at hsub

lemma exists_all_le (rows : List OutboxRecord) : ∃ now, ∀ r ∈ rows, r.nextRetryAt ≤ now := by
  induction rows with
  | nil => exact ⟨"", by simp⟩
  | cons row rows ih =>
    obtain ⟨now, hnow⟩ := ih
    refine ⟨max row.nextRetryAt now, ?_⟩
    intro r hr
    rcases List.mem_cons.mp hr with rfl | hr
    · exact le_max_left _ _
    · exact (hnow r hr).trans (le_max_right _ _)

lemma Queue.inOrder_iff {db : Tables} {ids : List String} (h : Queue db ids) :
    InOrder db ids ↔ (queuedRows db ids).Pairwise fun a b => createdBefore a b := by
  have hdelivery : ∀ now limit, ((pendingOutboxEvents now limit db).map
      OutboxRecord.eventId).filter (· ∈ ids) =
        (delivery now limit db ids).map OutboxRecord.eventId := by
    intro now limit
    rw [List.filter_map]
    rfl
  have hqueued := h.queuedRows_ids
  have hstored : ∀ r ∈ queuedRows db ids, r ∈ db.outbox := fun r hr => List.mem_of_mem_filter hr
  constructor
  · intro horder
    -- at the latest of the retry stamps every queued row is due
    obtain ⟨now, hnow⟩ := exists_all_le (queuedRows db ids)
    have hall : (queuedRows db ids).filter (fun row => row.nextRetryAt ≤ now) =
        queuedRows db ids :=
      List.filter_eq_self.mpr fun r hr => by simpa using hnow r hr
    have hperm := delivery_perm now db ids
    rw [hall] at hperm
    have hdelivered := horder now none
    rw [hdelivery] at hdelivered
    have hnodup : ids.Nodup := h.keys.sublist h.queued
    have hids : (delivery now none db ids).map OutboxRecord.eventId =
        (queuedRows db ids).map OutboxRecord.eventId := by
      rw [← filter_mem_of_sublist hdelivered hnodup, ← filter_mem_of_sublist hqueued hnodup]
      apply List.filter_congr
      intro id _
      simp only [(hperm.map OutboxRecord.eventId).mem_iff]
    have hsame : delivery now none db ids = queuedRows db ids :=
      eq_of_map_eventId h.keys (fun r hr => hstored r (hperm.subset hr)) hstored hids
    rw [← hsame]
    exact delivery_sorted now none db ids
  · intro hascending now limit
    rw [hdelivery]
    have hsame : delivery now none db ids =
        (queuedRows db ids).filter fun row => row.nextRetryAt ≤ now := by
      refine (delivery_perm now db ids).eq_of_pairwise ?_ (delivery_sorted now none db ids)
        (hascending.filter _)
      intro a b ha hb hab hba
      have hmem := (delivery_perm now db ids).subset ha
      exact List.inj_on_of_nodup_map h.keys (hstored a (List.mem_of_mem_filter hmem))
        (hstored b (List.mem_of_mem_filter hb)) (eventId_eq_of_createdBefore hab hba)
    have hinitial : (delivery now limit db ids).Sublist (delivery now none db ids) :=
      (limited_sublist limit _).filter _
    refine (hinitial.map _).trans ?_
    rw [hsame]
    exact (List.filter_sublist.map _).trans hqueued

/-! ### Runs -/

section Ordered

variable (rt : Runtime) (policy : BackoffPolicy) (dumps : P → Except DbError String)

lemma OutboxCall.perform_spec (call : OutboxCall P) {w : World}
    (hkeys : (w.tables.outbox.map OutboxRecord.eventId).Nodup) : ∃ new,
      (call.perform rt policy dumps w).tables.outbox.map OutboxRecord.eventId =
        w.tables.outbox.map OutboxRecord.eventId ++ new ∧
      (w.tables.outbox.map OutboxRecord.eventId ++ new).Nodup ∧
      (call.queued rt policy dumps w).Sublist new := by
  cases call with
  | terminal o a =>
    obtain ⟨-, hsame | ⟨rows, _, _, _, -, -, -, -, hfresh, hnodup, heq⟩⟩ :=
      recordTerminalRun_commits dumps a o { store := w.tables } rfl
    · refine ⟨[], ?_, by simpa using hkeys, ?_⟩
      · simp only [OutboxCall.perform, hsame, List.append_nil]
      · simp [OutboxCall.queued, OutboxCall.perform, hsame]
    · have hout : ((OutboxCall.terminal o a).perform rt policy dumps w).tables.outbox =
          w.tables.outbox ++ rows := by
        simp only [OutboxCall.perform, heq]
      refine ⟨rows.map OutboxRecord.eventId, ?_, ?_, ?_⟩
      · rw [hout, List.map_append]
      · refine List.nodup_append.mpr ⟨hkeys, hnodup, ?_⟩
        intro id hid id' hid'
        obtain ⟨r, hr, rfl⟩ := List.mem_map.mp hid
        obtain ⟨r', hr', rfl⟩ := List.mem_map.mp hid'
        have hnew := hfresh r' hr'
        simp only [Tables.getOutboxEvent, List.find?_eq_none, decide_eq_true_eq] at hnew
        exact hnew r hr
      · rw [OutboxCall.queued, hout, List.drop_left]
  | other call =>
    cases call with
    | enqueue o a =>
      obtain ⟨-, hsame | ⟨row, -, hnew, heq⟩⟩ :=
        enqueueOutboxEvent_commits dumps a o { store := w.tables } rfl
      · refine ⟨[], ?_, by simpa using hkeys, by simp [OutboxCall.queued]⟩
        simp only [OutboxCall.perform, PublisherCall.perform, hsame, List.append_nil]
      · refine ⟨[row.eventId], ?_, ?_, by simp [OutboxCall.queued]⟩
        · simp only [OutboxCall.perform, PublisherCall.perform, heq, List.map_append,
            List.map_cons, List.map_nil]
        · refine List.nodup_append.mpr ⟨hkeys, List.nodup_singleton _, ?_⟩
          intro id hid id' hid'
          obtain ⟨r, hr, rfl⟩ := List.mem_map.mp hid
          rw [List.mem_singleton.mp hid']
          simp only [Tables.getOutboxEvent, List.find?_eq_none, decide_eq_true_eq] at hnew
          exact hnew r hr
    | drain env limit =>
      refine ⟨[], ?_, by simpa using hkeys, by simp [OutboxCall.queued]⟩
      rw [List.append_nil]
      exact (drain_keeps rt policy env w limit).ids

lemma performOutbox_spec (calls : List (OutboxCall P)) {w : World}
    (hkeys : (w.tables.outbox.map OutboxRecord.eventId).Nodup) : ∃ new,
      (performOutbox rt policy dumps calls w).1.tables.outbox.map OutboxRecord.eventId =
        w.tables.outbox.map OutboxRecord.eventId ++ new ∧
      (w.tables.outbox.map OutboxRecord.eventId ++ new).Nodup ∧
      (performOutbox rt policy dumps calls w).2.Sublist new := by
  induction calls generalizing w with
  | nil => exact ⟨[], by simp [performOutbox], by simpa using hkeys, by simp [performOutbox]⟩
  | cons call calls ih =>
    obtain ⟨new, hids, hnodup, hqueued⟩ := call.perform_spec rt policy dumps hkeys
    rw [← hids] at hnodup
    obtain ⟨more, hids', hnodup', hqueued'⟩ := ih hnodup
    rw [hids, List.append_assoc] at hids' hnodup'
    exact ⟨new ++ more, hids', hnodup', hqueued.append hqueued'⟩

lemma performOutbox_queue {tables : Tables} (hempty : tables.outbox = [])
    (calls : List (OutboxCall P)) :
    Queue (performOutbox rt policy dumps calls { tables := tables }).1.tables
      (performOutbox rt policy dumps calls { tables := tables }).2 := by
  obtain ⟨new, hids, hnodup, hqueued⟩ := performOutbox_spec rt policy dumps calls
    (w := { tables := tables }) (by simp [hempty])
  simp only [hempty, List.map_nil, List.nil_append] at hids hnodup
  constructor
  · rw [hids]
    exact hnodup
  · rw [hids]
    exact hqueued

end Ordered

/-- Over any run from an empty outbox, the pending events of terminal writes come in the order of
the payload lists and of the writes exactly when the stamps and ids drawn for them ascend so. -/
theorem outbox_delivers_in_order (rt : Runtime) (policy : BackoffPolicy)
    (dumps : P → Except DbError String) (tables : Tables) (hempty : tables.outbox = [])
    (calls : List (OutboxCall P)) :
    let run := performOutbox rt policy dumps calls { tables := tables }
    InOrder run.1.tables run.2 ↔
      (queuedRows run.1.tables run.2).Pairwise fun a b => createdBefore a b := by
  intro run
  exact (performOutbox_queue rt policy dumps hempty calls).inOrder_iff

/-- The end of a run which owes two events; the statement that draws the first id is the
seventh. -/
def owingTwo (first second : String) : List (OutboxCall String) :=
  [.terminal ⟨fun _ => none, fun n => if n = 7 then first else second⟩
    { runId := "run-a", state := .wire "failed", payloads := ["[1]", "[2]"]
      stamp := some "2026-01-01T00:00:00Z" }]

theorem outbox_delivers_in_order_ascending :
    let run := performOutbox sampleRuntime {} .ok (owingTwo "0aa000000000" "f00000000000")
      { tables := oneRunning.store }
    InOrder run.1.tables run.2 :=
  (outbox_delivers_in_order sampleRuntime {} .ok oneRunning.store (by decide +kernel)
    (owingTwo "0aa000000000" "f00000000000")).mpr (by decide +kernel)

/-- When the second id sorts before the first, the second event comes first. -/
theorem outbox_delivers_backwards :
    let run := performOutbox sampleRuntime {} .ok (owingTwo "f00000000000" "0aa000000000")
      { tables := oneRunning.store }
    ¬ InOrder run.1.tables run.2 := by
  intro run horder
  have hqueue := performOutbox_queue sampleRuntime {} .ok
    (show oneRunning.store.outbox = [] by decide +kernel)
    (owingTwo "f00000000000" "0aa000000000")
  have hascending := hqueue.inOrder_iff.mp horder
  exact absurd hascending (by decide +kernel)

end AgenticDynamics.Control
