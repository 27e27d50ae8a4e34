import AgenticDynamics.Knowledge.Compaction

/-!
# Tombstones under redelivery

What the registry consumer may append for one entity when events are handled in any order and any
number of times, and when a tombstone then heads the entity. A version whose line is appended
again after the tombstone is newer than the tombstone, and it is open unless it was superseded.
-/

namespace AgenticDynamics.Knowledge

open Python StableSort

/-! ### The log of an entity -/

structure Handling where
  record : RegistryRecord
  operation : String
  reason : String

/-- The lines that handling events one after the other appends. -/
def registryLog (hs : List Handling) : List Row :=
  hs.flatMap fun h => registryLines h.record h.operation h.reason

/-- The events are of one entity, and the consumer's clock does not go back. -/
structure OneEntity (e : String) (hs : List Handling) : Prop where
  entity : ∀ h ∈ hs, h.record.entityId = e
  later : hs.Pairwise fun a b => a.record.indexedAt ≤ b.record.indexedAt

lemma registryLines_spec {record : RegistryRecord} {operation reason : String} {r : Row}
    (hr : r ∈ registryLines record operation reason) :
    r.entityId = some record.entityId ∧ r.indexedAt = some record.indexedAt := by
  simp only [registryLines] at hr
  split at hr
  · split at hr
    · rcases List.mem_pair.mp hr with rfl | rfl <;> exact ⟨rfl, rfl⟩
    · rw [List.mem_singleton.mp hr]
      exact ⟨rfl, rfl⟩
  · rw [List.mem_singleton.mp hr]
    exact ⟨rfl, rfl⟩

/-- The rows of a log that can be attributed. -/
def attributed (rows : List Row) : List Row := rows.filter fun r => r.Attributed

lemma iterRegistryRows_rows (rows : List Row) :
    iterRegistryRows (rows.map .row) = .ok (attributed rows) := by
  induction rows with
  | nil => rfl
  | cons r rows ih =>
    simp only [List.map_cons, iterRegistryRows, ih, bind, Except.bind, pure, Except.pure, attributed,
      List.filter_cons, decide_eq_true_eq]

section Log

variable {e : String} {hs : List Handling}

lemma mem_registryLog {r : Row} :
    r ∈ registryLog hs ↔ ∃ h ∈ hs, r ∈ registryLines h.record h.operation h.reason :=
  List.mem_flatMap

lemma pairwise_registryLog
    (hlater : hs.Pairwise fun a b => a.record.indexedAt ≤ b.record.indexedAt) :
    (registryLog hs).Pairwise fun a b => a.indexed ≤ b.indexed := by
  refine List.pairwise_flatMap.mpr ⟨fun h _ => ?_, hlater.imp fun hle a ha b hb => ?_⟩
  · refine List.pairwise_of_forall_mem_list fun a ha b hb => ?_
    simp [Row.indexed, (registryLines_spec ha).2, (registryLines_spec hb).2]
  · simpa [Row.indexed, (registryLines_spec ha).2, (registryLines_spec hb).2] using hle

lemma OneEntity.inOrder (hone : OneEntity e hs) : InOrder (attributed (registryLog hs)) := by
  refine List.Pairwise.imp ?_ ((pairwise_registryLog hone.later).filter fun r =>
    decide r.Attributed)
  intro a b hle _
  exact hle

lemma OneEntity.rows (hone : OneEntity e hs) :
    ∀ r ∈ attributed (registryLog hs), r.entity = e ∧ r.indexedAt.isSome := by
  intro r hr
  obtain ⟨h, hh, hline⟩ := mem_registryLog.mp (List.mem_of_mem_filter hr)
  obtain ⟨hentity, hindexed⟩ := registryLines_spec hline
  exact ⟨by simp [Row.entity, hentity, hone.entity h hh], by simp [hindexed]⟩

end Log

/-! ### When a tombstone stands -/

/-- The stamp of the last line of a version. -/
def lastStamp (rows : List Row) (k : String) : String := (lastSaid Row.indexedAt rows k).getD ""

/-- Some version that no version names was deleted last, and no open version that none names has
a later line. -/
def TombstoneStands (rows : List Row) : Prop :=
  ∃ t ∈ rows, ¬ Named rows t.kid ∧ Deleted rows t.kid ∧
    ∀ r ∈ rows, ¬ Named rows r.kid → ¬ Deleted rows r.kid →
      lastStamp rows r.kid ≤ lastStamp rows t.kid

instance (rows : List Row) : Decidable (TombstoneStands rows) :=
  inferInstanceAs (Decidable (∃ t ∈ rows, _))

/-- The index reports the entity as tombstoned and none of its versions as current. -/
def ReportedTombstoned (e : String) (lines : List Line) : Prop :=
  ∃ row, registryRow e (some lines) = .ok (some row) ∧ row.lifecycle = .tombstoned ∧
    ∀ v ∈ row.versions, v.lifecycle ≠ .current

lemma closeOpen_closes {vs : List Version} {head : Version}
    (hunique : ∀ v ∈ vs, v.row.kid = head.row.kid → v = head)
    (hstate : head.lifecycle = .tombstoned) : ∀ v ∈ closeOpen head vs, v.lifecycle ≠ .current := by
  intro v hv
  rw [closeOpen, if_pos hstate] at hv
  obtain ⟨r, hr, rfl⟩ := List.mem_map.mp hv
  split
  · simp
  · rename_i hopen
    intro hcurrent
    by_cases hkid : r.row.kid = head.row.kid
    · rw [hunique r hr hkid, hstate] at hcurrent
      simp at hcurrent
    · exact hopen ⟨hkid, hcurrent⟩

section Stands

variable {rows : List Row} (hord : InOrder rows)
include hord

lemma indexed_eq {v : Version} (hv : v ∈ versions rows) :
    v.row.indexed = lastStamp rows v.row.kid := by
  rw [Row.indexed, indexedAt_eq hord hv, lastStamp]

lemma tombstoneStands_iff :
    (∃ t ∈ inState .tombstoned (versions rows), ∀ l ∈ inState .current (versions rows),
      l.row.indexed ≤ t.row.indexed) ↔ TombstoneStands rows := by
  constructor
  · rintro ⟨t, ht, hnewest⟩
    obtain ⟨htv, htstate⟩ := mem_inState.mp ht
    obtain ⟨r, hr, hkid⟩ := exists_line htv
    obtain ⟨hnot, hdeleted⟩ := (lifecycle_iff hord htv).2.1.mp htstate
    refine ⟨r, hr, hkid ▸ hnot, hkid ▸ hdeleted, fun r' hr' hnot' hopen' => ?_⟩
    obtain ⟨l, hl, hlkid⟩ := exists_version hr'
    have hlstate : l.lifecycle = .current :=
      (lifecycle_iff hord hl).2.2.mpr ⟨hlkid ▸ hnot', hlkid ▸ hopen'⟩
    have hle := hnewest l (mem_inState.mpr ⟨hl, hlstate⟩)
    rwa [indexed_eq hord hl, indexed_eq hord htv, hlkid, ← hkid] at hle
  · rintro ⟨r, hr, hnot, hdeleted, hnewest⟩
    obtain ⟨t, ht, hkid⟩ := exists_version hr
    have htstate : t.lifecycle = .tombstoned :=
      (lifecycle_iff hord ht).2.1.mpr ⟨hkid ▸ hnot, hkid ▸ hdeleted⟩
    refine ⟨t, mem_inState.mpr ⟨ht, htstate⟩, fun l hl => ?_⟩
    obtain ⟨hlv, hlstate⟩ := mem_inState.mp hl
    obtain ⟨r', hr', hkid'⟩ := exists_line hlv
    obtain ⟨hnot', hopen'⟩ := (lifecycle_iff hord hlv).2.2.mp hlstate
    rw [indexed_eq hord hlv, indexed_eq hord ht, hkid, ← hkid']
    exact hnewest r' hr' (hkid' ▸ hnot') (hkid' ▸ hopen')

end Stands

lemma reportedTombstoned_iff {e : String} {lines : List Line} {rows : List Row}
    (hrows : iterRegistryRows lines = .ok rows) (hord : InOrder rows)
    (hentity : ∀ r ∈ rows, r.entity = e) (hindexed : ∀ r ∈ rows, r.indexedAt.isSome) :
    ReportedTombstoned e lines ↔ TombstoneStands rows := by
  have hall : entityVersions rows e = versions rows := by
    refine List.filter_eq_self.mpr fun v hv => ?_
    obtain ⟨kv, hkv, hrow, -⟩ := exists_row_of_mem_versions hv
    rw [hrow, decide_eq_true_eq]
    exact entity_of_mem hkv fun r hr _ => hentity r hr
  rw [← tombstoneStands_iff hord, ← hall, ReportedTombstoned]
  rcases registryRow_eq hrows hindexed e with ⟨hnil, hnone⟩ |
    ⟨row, head, hrow, hhead, -, -, hlife, hversions⟩
  · simp [hnone, hnil, inState]
  · rw [hrow, ← hhead.tombstoned_iff, ← hlife]
    constructor
    · rintro ⟨row', hrow', hstate, -⟩
      simp only [Except.ok.injEq, Option.some.injEq] at hrow'
      rw [hrow', hstate]
    · intro hstate
      refine ⟨row, rfl, hstate, fun v hv => ?_⟩
      rw [hversions] at hv
      obtain ⟨v', hv', rfl⟩ := List.mem_map.mp hv
      refine closeOpen_closes (fun v hv hkid => ?_) (hlife ▸ hstate) v' hv'
      have hnodup : ((versions rows).map fun v => v.row.kid).Nodup := by
        rw [kids_versions]
        exact nodup_firsts _
      have hmem := (byIndexed_perm _).subset hv
      rw [hall] at hmem
      exact List.inj_on_of_nodup_map hnodup hmem (hall ▸ hhead.mem) hkid

/-- The index reports an entity as tombstoned, with no version current, exactly when in its log a
version that none names was deleted last and no open version that none names has a later line. -/
theorem tombstone_terminal_iff {e : String} {hs : List Handling} (hone : OneEntity e hs) :
    ReportedTombstoned e ((registryLog hs).map .row) ↔
      TombstoneStands (attributed (registryLog hs)) :=
  reportedTombstoned_iff (iterRegistryRows_rows _) hone.inOrder (fun r hr => (hone.rows r hr).1)
    fun r hr => (hone.rows r hr).2

/-- A record of the flag of a session, as indexed at `t`. -/
def flagRecord (knowledgeId t : String) : RegistryRecord where
  knowledgeId := knowledgeId
  entityId := "flag"
  sourceType := "flag"
  logicalLocator := "session"
  validFrom := "2026-09-01T08:00:00+00:00"
  observedAt := "2026-09-01T08:00:00+00:00"
  indexedAt := t

/-- A flag is registered and cleared, and the registration is handled again as its acknowledgement
was lost. -/
def flagCleared : List Handling :=
  [⟨flagRecord "raised" "2026-09-01T08:00:05+00:00", "upsert", ""⟩,
    ⟨flagRecord "cleared" "2026-09-01T08:00:35+00:00", "delete", "auto-cleared"⟩]

def flagRedelivered : List Handling :=
  flagCleared ++ [⟨flagRecord "raised" "2026-09-01T08:01:05+00:00", "upsert", ""⟩]

lemma flagCleared_oneEntity : OneEntity "flag" flagCleared where
  entity := by simp [flagCleared, flagRecord]
  later := by decide

theorem tombstone_terminal_flagCleared :
    ReportedTombstoned "flag" ((registryLog flagCleared).map .row) ↔
      TombstoneStands (attributed (registryLog flagCleared)) :=
  tombstone_terminal_iff flagCleared_oneEntity

lemma flagRedelivered_oneEntity : OneEntity "flag" flagRedelivered where
  entity := by simp [flagRedelivered, flagCleared, flagRecord]
  later := by decide

/-- After the redelivery the cleared flag is not reported as tombstoned any more. -/
theorem redelivery_raises_the_flag :
    OneEntity "flag" flagRedelivered ∧
      (∃ h ∈ flagRedelivered, h.record.knowledgeId = "cleared" ∧ h.operation = "delete") ∧
      ¬ ReportedTombstoned "flag" ((registryLog flagRedelivered).map .row) := by
  have hone := flagRedelivered_oneEntity
  refine ⟨hone, ?_, ?_⟩
  · exact ⟨⟨flagRecord "cleared" "2026-09-01T08:00:35+00:00", "delete", "auto-cleared"⟩,
      by simp [flagRedelivered, flagCleared], rfl, rfl⟩
  · rw [reportedTombstoned_iff (iterRegistryRows_rows _) hone.inOrder
      (fun r hr => (hone.rows r hr).1) fun r hr => (hone.rows r hr).2]
    decide

end AgenticDynamics.Knowledge
