import AgenticDynamics.Library.Accumulate
import AgenticDynamics.Knowledge.RegistryLog

/-!
# What a compaction reports

The row of a version says what its lines say last, a version is superseded when the row of some
version names it, and the head of an entity is the latest tombstone or the latest open version.
-/

namespace AgenticDynamics.Knowledge

open Python StableSort

/-! ### The lines of a version -/

def linesOf (rows : List Row) (k : String) : List Row := rows.filter fun r => r.kid = k

/-- What the lines of a version say last in a field. -/
def lastSaid (f : Row → Option String) (rows : List Row) (k : String) : Option String :=
  ((linesOf rows k).filterMap f).getLast?

/-- The lines of a version do not go back in time. -/
def InOrder (rows : List Row) : Prop :=
  rows.Pairwise fun a b => a.kid = b.kid → a.indexed ≤ b.indexed

/-- The last pointer of some version names the version. -/
def Named (rows : List Row) (k : String) : Prop :=
  ∃ r ∈ rows, truthy (lastSaid Row.supersedes rows r.kid) = some k

instance (rows : List Row) (k : String) : Decidable (Named rows k) :=
  inferInstanceAs (Decidable (∃ r ∈ rows, truthy (lastSaid Row.supersedes rows r.kid) = some k))

lemma InOrder.linesOf {rows : List Row} (h : InOrder rows) (k : String) :
    (linesOf rows k).Pairwise fun a b => a.indexed ≤ b.indexed := by
  refine (h.filter _).imp_of_mem fun {a b} ha hb hle => hle ?_
  have hka : a.kid = k := by simpa using List.of_mem_filter ha
  have hkb : b.kid = k := by simpa using List.of_mem_filter hb
  rw [hka, hkb]

/-! ### The row of a version -/

/-- A line on top of what is known of its version. -/
def foldLine (existing : Option Row) (row : Row) : Row :=
  existing.elim row fun ex => if ex.indexed ≤ row.indexed then ex.merge row else ex

lemma byKnowledgeId_eq (rows : List Row) :
    byKnowledgeId rows = Dict.accumulate Row.kid foldLine rows := by
  induction rows using List.reverseRecOn with
  | nil => rfl
  | append_singleton rows r ih =>
    have hstep : byKnowledgeId (rows ++ [r]) = collect (byKnowledgeId rows) r := by
      rw [byKnowledgeId, List.foldl_append]
      rfl
    rw [hstep, ih, Dict.accumulate_concat, collect]
    cases hget : Dict.get? r.kid (Dict.accumulate Row.kid foldLine rows) with
    | none => rfl
    | some ex =>
      simp only [foldLine, Option.elim_some]
      split
      · rfl
      · exact (Dict.set_self (Dict.nodup_accumulate _ _ _) hget).symm

lemma keys_byKnowledgeId (rows : List Row) :
    (byKnowledgeId rows).map Prod.fst = firsts (rows.map Row.kid) := by
  rw [byKnowledgeId_eq, Dict.keys_accumulate]

lemma mem_byKnowledgeId {rows : List Row} {kv : String × Row} :
    kv ∈ byKnowledgeId rows ↔
      (linesOf rows kv.1).foldl (fun entry r => some (foldLine entry r)) none = some kv.2 := by
  rw [byKnowledgeId_eq, linesOf, ← Dict.get?_accumulate]
  refine ⟨fun h => Dict.get?_of_mem h fun kv' hkv' hk => ?_, Dict.mem_of_get?⟩
  have hkv : (kv.1, kv'.2) ∈ Dict.accumulate Row.kid foldLine rows := hk ▸ hkv'
  exact Dict.value_unique (Dict.nodup_accumulate _ _ _) hkv h

lemma row_induction {lines : List Row} {P : Row → Prop} (hline : ∀ r ∈ lines, P r)
    (hmerge : ∀ ex r, P ex → P r → P (ex.merge r)) {row : Row}
    (h : lines.foldl (fun entry r => some (foldLine entry r)) none = some row) : P row := by
  induction lines using List.reverseRecOn generalizing row with
  | nil => simp at h
  | append_singleton lines r ih =>
    have hr : P r := hline r (by simp)
    have hlines : ∀ r ∈ lines, P r := fun r hr => hline r (List.mem_append_left _ hr)
    rw [List.foldl_append, List.foldl_cons, List.foldl_nil, Option.some.injEq] at h
    cases hprev : lines.foldl (fun entry r => some (foldLine entry r)) none with
    | none =>
      rw [hprev] at h
      exact h ▸ hr
    | some ex =>
      rw [hprev] at h
      simp only [foldLine, Option.elim_some] at h
      split at h
      · exact h ▸ hmerge ex r (ih hlines hprev) hr
      · exact h ▸ ih hlines hprev

lemma indexed_merge (ex r : Row) :
    (ex.merge r).indexed = r.indexed ∨ (ex.merge r).indexed = ex.indexed := by
  cases hr : r.indexedAt with
  | none => exact .inr (by simp [Row.indexed, Row.merge, hr])
  | some t => exact .inl (by simp [Row.indexed, Row.merge, hr])

lemma indexed_of_row {lines : List Row} {row : Row}
    (h : lines.foldl (fun entry r => some (foldLine entry r)) none = some row) :
    ∃ a ∈ lines, row.indexed ≤ a.indexed := by
  refine row_induction (P := fun row => ∃ a ∈ lines, row.indexed ≤ a.indexed)
    (fun a ha => ⟨a, ha, le_refl _⟩) (fun ex r hex hr => ?_) h
  rcases indexed_merge ex r with heq | heq
  · rwa [heq]
  · rwa [heq]

/-- A field that merging takes from the newer row where it has it. -/
def Merged (f : Row → Option String) : Prop := ∀ ex r : Row, f (ex.merge r) = (f r).or (f ex)

lemma row_says_last {f : Row → Option String} (hf : Merged f) {lines : List Row}
    (hsorted : lines.Pairwise fun a b => a.indexed ≤ b.indexed) {row : Row}
    (h : lines.foldl (fun entry r => some (foldLine entry r)) none = some row) :
    f row = (lines.filterMap f).getLast? := by
  induction lines using List.reverseRecOn generalizing row with
  | nil => simp at h
  | append_singleton lines r ih =>
    obtain ⟨hlines, -, hle⟩ := List.pairwise_append.mp hsorted
    rw [List.foldl_append, List.foldl_cons, List.foldl_nil, Option.some.injEq] at h
    rw [List.filterMap_append, List.getLast?_append]
    have hlast : ([r].filterMap f).getLast? = f r := by
      cases hr : f r <;> simp [hr]
    rw [hlast]
    cases hprev : lines.foldl (fun entry r => some (foldLine entry r)) none with
    | none =>
      have hnil : lines = [] := by
        cases lines using List.reverseRecOn with
        | nil => rfl
        | append_singleton init a => simp [List.foldl_append] at hprev
      rw [hprev] at h
      rw [← h, hnil]
      simp [foldLine]
    | some ex =>
      -- what was read so far is not newer than the line, so the line is merged
      have hnotNewer : ex.indexed ≤ r.indexed := by
        obtain ⟨a, ha, hexa⟩ := indexed_of_row hprev
        exact hexa.trans (hle a ha r (List.mem_singleton_self r))
      rw [hprev] at h
      simp only [foldLine, Option.elim_some, if_pos hnotNewer] at h
      rw [← h, hf, ih hlines hprev]

section Table

variable {rows : List Row} {kv : String × Row}

lemma kid_of_mem (h : kv ∈ byKnowledgeId rows) : kv.2.kid = kv.1 := by
  refine row_induction (P := fun row => row.kid = kv.1)
    (fun r hr => by simpa using List.of_mem_filter hr) (fun ex r hex hr => ?_)
    (mem_byKnowledgeId.mp h)
  cases hk : r.knowledgeId with
  | none => simpa [Row.kid, Row.merge, hk] using hex
  | some k => simpa [Row.kid, Row.merge, hk] using hr

lemma entity_of_mem (h : kv ∈ byKnowledgeId rows) {e : String}
    (hentity : ∀ r ∈ rows, r.kid = kv.1 → r.entity = e) : kv.2.entity = e := by
  refine row_induction (P := fun row => row.entity = e) (fun r hr => ?_) (fun ex r hex hr => ?_)
    (mem_byKnowledgeId.mp h)
  · exact hentity r (List.mem_of_mem_filter hr) (by simpa using List.of_mem_filter hr)
  · cases he : r.entityId with
    | none => simpa [Row.entity, Row.merge, he] using hex
    | some e' => simpa [Row.entity, Row.merge, he] using hr

lemma indexedAt_of_mem (h : kv ∈ byKnowledgeId rows)
    (hindexed : ∀ r ∈ rows, r.indexedAt.isSome) : kv.2.indexedAt.isSome := by
  refine row_induction (P := fun row => row.indexedAt.isSome)
    (fun r hr => hindexed r (List.mem_of_mem_filter hr)) (fun ex r hex _ => ?_)
    (mem_byKnowledgeId.mp h)
  cases ht : r.indexedAt <;> simp [Row.merge, ht, hex]

lemma lastSaid_of_mem (hord : InOrder rows) (h : kv ∈ byKnowledgeId rows)
    {f : Row → Option String} (hf : Merged f) : f kv.2 = lastSaid f rows kv.1 :=
  row_says_last hf (hord.linesOf kv.1) (mem_byKnowledgeId.mp h)

lemma mem_keys {k : String} :
    k ∈ (byKnowledgeId rows).map Prod.fst ↔ ∃ r ∈ rows, r.kid = k := by
  rw [keys_byKnowledgeId, mem_firsts, List.mem_map]

end Table

/-! ### What became of a version -/

lemma successors_concat (d : Dict Row) (kv : String × Row) :
    successors (d ++ [kv]) =
      (truthy kv.2.supersedes).elim (successors d) fun k => (successors d).set k kv.2 := by
  rw [successors, List.foldl_append]
  rfl

lemma isSome_successors {d : Dict Row} {k : String} :
    ((successors d).get? k).isSome ↔ ∃ kv ∈ d, truthy kv.2.supersedes = some k := by
  induction d using List.reverseRecOn with
  | nil => simp [successors, Dict.get?]
  | append_singleton d kv ih =>
    rw [successors_concat]
    have hsplit : (∃ kv' ∈ d ++ [kv], truthy kv'.2.supersedes = some k) ↔
        (∃ kv' ∈ d, truthy kv'.2.supersedes = some k) ∨ truthy kv.2.supersedes = some k := by
      simp only [List.mem_append, List.mem_singleton, or_and_right, exists_or, exists_eq_left]
    rw [hsplit, ← ih]
    cases hs : truthy kv.2.supersedes with
    | none => simp
    | some k' =>
      rw [Option.elim_some, Dict.get?_set]
      by_cases hk : k' = k
      · simp [hk]
      · simp [hk]

def versions (rows : List Row) : List Version := derivedVersions (byKnowledgeId rows)

section Versions

variable {rows : List Row} {v : Version}

lemma exists_row_of_mem_versions (h : v ∈ versions rows) :
    ∃ kv ∈ byKnowledgeId rows, v.row = kv.2 ∧
      (v.lifecycle, v.validTo) = deriveLifecycle kv.2 (successors (byKnowledgeId rows)) := by
  obtain ⟨kv, hkv, rfl⟩ := List.mem_map.mp h
  exact ⟨kv, hkv, rfl, rfl⟩

lemma kids_versions (rows : List Row) :
    (versions rows).map (fun v => v.row.kid) = firsts (rows.map Row.kid) := by
  rw [versions, derivedVersions, List.map_map, ← keys_byKnowledgeId]
  exact List.map_congr_left fun kv hkv => kid_of_mem hkv

lemma nodup_versions (rows : List Row) : (versions rows).Nodup := by
  have h : ((versions rows).map fun v => v.row.kid).Nodup := by
    rw [kids_versions]
    exact nodup_firsts _
  exact h.of_map

lemma exists_version {r : Row} (hr : r ∈ rows) : ∃ v ∈ versions rows, v.row.kid = r.kid := by
  have hk : r.kid ∈ (versions rows).map fun v => v.row.kid := by
    rw [kids_versions, mem_firsts]
    exact List.mem_map_of_mem hr
  exact List.mem_map.mp hk

lemma exists_line (hv : v ∈ versions rows) : ∃ r ∈ rows, r.kid = v.row.kid := by
  have hk := List.mem_map_of_mem (f := fun v : Version => v.row.kid) hv
  rw [kids_versions, mem_firsts] at hk
  exact List.mem_map.mp hk

lemma named_iff (hord : InOrder rows) {k : String} :
    (∃ kv ∈ byKnowledgeId rows, truthy kv.2.supersedes = some k) ↔ Named rows k := by
  have hmerged : Merged Row.supersedes := fun _ _ => rfl
  constructor
  · rintro ⟨kv, hkv, hs⟩
    obtain ⟨r, hr, hk⟩ := mem_keys.mp (List.mem_map_of_mem hkv)
    exact ⟨r, hr, by rw [hk, ← lastSaid_of_mem hord hkv hmerged, hs]⟩
  · rintro ⟨r, hr, hs⟩
    obtain ⟨kv, hkv, hk⟩ := List.mem_map.mp (mem_keys.mpr ⟨r, hr, rfl⟩)
    exact ⟨kv, hkv, by rw [lastSaid_of_mem hord hkv hmerged, hk, hs]⟩

/-- What the lines of a version say last is that it was deleted. -/
def Deleted (rows : List Row) (k : String) : Prop :=
  lastSaid Row.lifecycleState rows k = some "tombstoned"

instance (rows : List Row) (k : String) : Decidable (Deleted rows k) :=
  inferInstanceAs (Decidable (_ = _))

lemma lifecycle_iff (hord : InOrder rows) (hv : v ∈ versions rows) :
    (v.lifecycle = .superseded ↔ Named rows v.row.kid) ∧
      (v.lifecycle = .tombstoned ↔ ¬ Named rows v.row.kid ∧ Deleted rows v.row.kid) ∧
      (v.lifecycle = .current ↔ ¬ Named rows v.row.kid ∧ ¬ Deleted rows v.row.kid) := by
  obtain ⟨kv, hkv, hrow, hstate⟩ := exists_row_of_mem_versions hv
  have hkid : v.row.kid = kv.1 := hrow ▸ kid_of_mem hkv
  have hlife : v.lifecycle = (deriveLifecycle kv.2 (successors (byKnowledgeId rows))).1 :=
    congrArg Prod.fst hstate
  have hsaid : kv.2.lifecycleState = lastSaid Row.lifecycleState rows v.row.kid := by
    rw [hkid]
    exact lastSaid_of_mem hord hkv fun _ _ => rfl
  have hnamed : ((successors (byKnowledgeId rows)).get? kv.2.kid).isSome ↔
      Named rows v.row.kid := by
    rw [isSome_successors, named_iff hord, hrow]
  rw [hlife, deriveLifecycle, ← hnamed, Deleted, ← hsaid]
  cases hget : (successors (byKnowledgeId rows)).get? kv.2.kid with
  | some successor => simp
  | none =>
    by_cases hdeleted : kv.2.lifecycleState = some "tombstoned" <;> simp [hdeleted]

lemma indexedAt_eq (hord : InOrder rows) (hv : v ∈ versions rows) :
    v.row.indexedAt = lastSaid Row.indexedAt rows v.row.kid := by
  obtain ⟨kv, hkv, hrow, -⟩ := exists_row_of_mem_versions hv
  rw [hrow, kid_of_mem hkv]
  exact lastSaid_of_mem hord hkv fun _ _ => rfl

end Versions

/-! ### The head of an entity -/

section Head

variable {vs : List Version} {head : Version}

/-- The versions of an entity in the order in which the head is looked for. -/
def byIndexed (vs : List Version) : List Version := sortBy (fun v => v.row.indexed) vs

def inState (state : Lifecycle) (vs : List Version) : List Version :=
  vs.filter fun v => v.lifecycle = state

/-- No version of the list is newer, and of those that are as new it stands last. -/
abbrev Newest (vs : List Version) (v : Version) : Prop := Latest (fun v => v.row.indexed) vs v

lemma byIndexed_perm (vs : List Version) : (byIndexed vs).Perm vs := sortBy_perm _ _

@[simp] lemma mem_inState {state : Lifecycle} {v : Version} :
    v ∈ inState state vs ↔ v ∈ vs ∧ v.lifecycle = state := by
  simp [inState]

lemma last_inState (hnodup : vs.Nodup) (state : Lifecycle) :
    ((inState state (byIndexed vs)).getLast? = none ∧ inState state vs = []) ∨
      ∃ v, (inState state (byIndexed vs)).getLast? = some v ∧ Newest (inState state vs) v := by
  cases hlast : (inState state (byIndexed vs)).getLast? with
  | none =>
    have hperm := (byIndexed_perm vs).filter fun v => decide (v.lifecycle = state)
    have hnil : inState state (byIndexed vs) = [] := List.getLast?_eq_none_iff.mp hlast
    refine .inl ⟨rfl, List.Perm.eq_nil ?_⟩
    rw [← hnil]
    exact hperm.symm
  | some v => exact .inr ⟨v, rfl, (getLast?_filter_sortBy hnodup).mp hlast⟩

/-- What the head is: the newest tombstone unless an open version is newer, else the newest open
version, and any version where all are superseded. -/
structure IsHead (vs : List Version) (head : Version) : Prop where
  mem : head ∈ vs
  tombstone : head.lifecycle = .tombstoned → Newest (inState .tombstoned vs) head ∧
    ∀ l ∈ inState .current vs, l.row.indexed ≤ head.row.indexed
  live : head.lifecycle = .current → Newest (inState .current vs) head ∧
    ∀ t ∈ inState .tombstoned vs, t.row.indexed < head.row.indexed
  superseded : head.lifecycle = .superseded →
    inState .tombstoned vs = [] ∧ inState .current vs = []

lemma notBefore_eq {t l : Version} (ht : t.row.indexedAt.isSome) (hl : l.row.indexedAt.isSome) :
    notBefore t l = .ok (decide (l.row.indexed ≤ t.row.indexed)) := by
  obtain ⟨a, ha⟩ := Option.isSome_iff_exists.mp ht
  obtain ⟨b, hb⟩ := Option.isSome_iff_exists.mp hl
  simp [notBefore, Row.indexed, ha, hb]

lemma isHead_of_tombstone {t : Version} (ht : Newest (inState .tombstoned vs) t)
    (hlive : ∀ l ∈ inState .current vs, l.row.indexed ≤ t.row.indexed) : IsHead vs t := by
  obtain ⟨hmem, hstate⟩ := mem_inState.mp ht.mem
  exact ⟨hmem, fun _ => ⟨ht, hlive⟩, fun h => by simp [hstate] at h, fun h => by simp [hstate] at h⟩

lemma isHead_of_live {l : Version} (hl : Newest (inState .current vs) l)
    (htomb : ∀ t ∈ inState .tombstoned vs, t.row.indexed < l.row.indexed) : IsHead vs l := by
  obtain ⟨hmem, hstate⟩ := mem_inState.mp hl.mem
  exact ⟨hmem, fun h => by simp [hstate] at h, fun _ => ⟨hl, htomb⟩, fun h => by simp [hstate] at h⟩

lemma headOf_byIndexed (hnodup : vs.Nodup) (hne : vs ≠ [])
    (hindexed : ∀ v ∈ vs, v.row.indexedAt.isSome) :
    ∃ head, headOf (byIndexed vs) = .ok head ∧ IsHead vs head := by
  rcases last_inState hnodup .tombstoned with ⟨ht, htnil⟩ | ⟨t, ht, htnew⟩
  · rcases last_inState hnodup .current with ⟨hl, hlnil⟩ | ⟨l, hl, hlnew⟩
    · cases hlast : (byIndexed vs).getLast? with
      | none =>
        have hnil : byIndexed vs = [] := List.getLast?_eq_none_iff.mp hlast
        exact absurd ((hnil ▸ byIndexed_perm vs).symm.eq_nil) hne
      | some head =>
        refine ⟨head, ?_, ?_⟩
        · rw [inState] at ht hl
          rw [headOf, ht, hl, hlast]
          rfl
        have hmem : head ∈ vs := (byIndexed_perm vs).subset (List.mem_of_getLast? hlast)
        refine ⟨hmem, fun h => ?_, fun h => ?_, fun _ => ⟨htnil, hlnil⟩⟩
        · exact absurd (mem_inState.mpr ⟨hmem, h⟩) (by simp [htnil])
        · exact absurd (mem_inState.mpr ⟨hmem, h⟩) (by simp [hlnil])
    · refine ⟨l, ?_, isHead_of_live hlnew (by simp [htnil])⟩
      rw [inState] at ht hl
      rw [headOf, ht, hl]
  · rcases last_inState hnodup .current with ⟨hl, hlnil⟩ | ⟨l, hl, hlnew⟩
    · refine ⟨t, ?_, isHead_of_tombstone htnew (by simp [hlnil])⟩
      rw [inState] at ht hl
      rw [headOf, ht, hl]
    · have hcompare := notBefore_eq (hindexed t (mem_inState.mp htnew.mem).1)
        (hindexed l (mem_inState.mp hlnew.mem).1)
      have hhead : headOf (byIndexed vs) =
          .ok (if l.row.indexed ≤ t.row.indexed then t else l) := by
        rw [inState] at ht hl
        rw [headOf, ht, hl]
        simp [hcompare, Except.map]
      by_cases hle : l.row.indexed ≤ t.row.indexed
      · refine ⟨t, by rw [hhead, if_pos hle], ?_⟩
        exact isHead_of_tombstone htnew fun l' hl' => (hlnew.le hl').trans hle
      · refine ⟨l, by rw [hhead, if_neg hle], ?_⟩
        exact isHead_of_live hlnew fun t' ht' => lt_of_le_of_lt (htnew.le ht') (not_le.mp hle)

lemma IsHead.tombstoned_iff (h : IsHead vs head) :
    head.lifecycle = .tombstoned ↔
      ∃ t ∈ inState .tombstoned vs, ∀ l ∈ inState .current vs, l.row.indexed ≤ t.row.indexed := by
  constructor
  · intro hstate
    exact ⟨head, mem_inState.mpr ⟨h.mem, hstate⟩, (h.tombstone hstate).2⟩
  · rintro ⟨t, ht, hnewest⟩
    cases hstate : head.lifecycle with
    | tombstoned => rfl
    | current =>
      obtain ⟨hlive, hbefore⟩ := h.live hstate
      exact absurd (hbefore t ht) (not_lt.mpr (hnewest head hlive.mem))
    | superseded => simp [(h.superseded hstate).1] at ht

lemma compactEntity_eq_ok {e : String} {row : RegistryRow} :
    compactEntity e vs = .ok row →
      ∃ head, headOf (byIndexed vs) = .ok head ∧ row.entityId = e ∧
        row.knowledgeId = head.row.kid ∧ row.lifecycle = head.lifecycle ∧
        row.versions = (closeOpen head (byIndexed vs)).map Version.listed := by
  intro h
  simp only [compactEntity, bind_eq_ok, pure, Except.pure, Except.ok.injEq] at h
  obtain ⟨head, hhead, rfl⟩ := h
  exact ⟨head, hhead, rfl, rfl, rfl, rfl⟩

lemma exists_compactEntity {e : String} (hhead : headOf (byIndexed vs) = .ok head) :
    ∃ row, compactEntity e vs = .ok row := by
  simp only [compactEntity, bind_eq_ok]
  exact ⟨_, head, hhead, rfl⟩

end Head

/-! ### The row of an entity -/

/-- The row that the compacted index has for an entity. -/
def registryRow (entityId : String) (file : Option (List Line)) :
    Except CompactionError (Option RegistryRow) :=
  (compactRegistryIndex file).map fun rows => rows.find? fun row => row.entityId = entityId

/-- The versions whose row is of the entity. -/
def entityVersions (rows : List Row) (e : String) : List Version :=
  (versions rows).filter fun v => v.row.entity = e

section Report

variable {lines : List Line} {rows : List Row}

lemma byEntity_eq (vs : List Version) : byEntity vs =
    Dict.accumulate (fun v => v.row.entity) (fun entry v => entry.getD [] ++ [v]) vs := rfl

lemma get?_byEntity (e : String) :
    (byEntity (versions rows)).get? e =
      if entityVersions rows e = [] then none else some (entityVersions rows e) := by
  rw [byEntity_eq, Dict.get?_group]
  rfl

lemma mem_byEntity {kv : String × List Version} :
    kv ∈ byEntity (versions rows) ↔ kv.2 = entityVersions rows kv.1 ∧ kv.2 ≠ [] := by
  have hnodup : ((byEntity (versions rows)).map Prod.fst).Nodup := by
    rw [byEntity_eq]
    exact Dict.nodup_accumulate _ _ _
  have hget : kv ∈ byEntity (versions rows) ↔ (byEntity (versions rows)).get? kv.1 = some kv.2 := by
    refine ⟨fun h => Dict.get?_of_mem h fun kv' hkv' hk => ?_, Dict.mem_of_get?⟩
    have hkv : (kv.1, kv'.2) ∈ byEntity (versions rows) := hk ▸ hkv'
    exact Dict.value_unique hnodup hkv h
  rw [hget, get?_byEntity]
  by_cases hnil : entityVersions rows kv.1 = []
  · simp [hnil]
  · simp only [if_neg hnil, Option.some.injEq]
    constructor
    · rintro h
      exact ⟨h.symm, h ▸ hnil⟩
    · exact fun h => h.1.symm

lemma indexedAt_of_mem_entityVersions (hindexed : ∀ r ∈ rows, r.indexedAt.isSome) {e : String} :
    ∀ v ∈ entityVersions rows e, v.row.indexedAt.isSome := by
  intro v hv
  obtain ⟨kv, hkv, hrow, -⟩ := exists_row_of_mem_versions (List.mem_of_mem_filter hv)
  rw [hrow]
  exact indexedAt_of_mem hkv hindexed

lemma nodup_entityVersions (rows : List Row) (e : String) : (entityVersions rows e).Nodup :=
  (nodup_versions rows).filter _

/-- What a compaction reports for an entity when every row has its stamp: nothing where no version
is of the entity, and else a row with its head. -/
theorem registryRow_eq (hrows : iterRegistryRows lines = .ok rows)
    (hindexed : ∀ r ∈ rows, r.indexedAt.isSome) (e : String) :
    (entityVersions rows e = [] ∧ registryRow e (some lines) = .ok none) ∨
      ∃ row head, registryRow e (some lines) = .ok (some row) ∧
        IsHead (entityVersions rows e) head ∧ row.entityId = e ∧
        row.knowledgeId = head.row.kid ∧ row.lifecycle = head.lifecycle ∧
        row.versions = (closeOpen head (byIndexed (entityVersions rows e))).map Version.listed := by
  have hheads : ∀ kv ∈ byEntity (versions rows), ∃ head, headOf (byIndexed kv.2) = .ok head ∧
      IsHead kv.2 head := by
    intro kv hkv
    obtain ⟨heq, hne⟩ := mem_byEntity.mp hkv
    rw [heq] at hne ⊢
    exact headOf_byIndexed (nodup_entityVersions _ _) hne (indexedAt_of_mem_entityVersions hindexed)
  obtain ⟨compacted, hcompacted⟩ : ∃ compacted,
      (byEntity (versions rows)).mapM (fun kv => compactEntity kv.1 kv.2) = .ok compacted := by
    refine mapM_isOk.mpr fun kv hkv => ?_
    obtain ⟨head, hhead, -⟩ := hheads kv hkv
    exact exists_compactEntity hhead
  have hindex : compactRegistryIndex (some lines) = .ok (sortBy RegistryRow.entityId compacted) := by
    simp only [compactRegistryIndex, hrows, bind, Except.bind]
    rw [versions] at hcompacted
    rw [hcompacted]
    rfl
  rw [registryRow, hindex]
  simp only [Except.map, Except.ok.injEq]
  cases hfind : (sortBy RegistryRow.entityId compacted).find? fun row => row.entityId = e with
  | none =>
    refine .inl ⟨?_, rfl⟩
    by_contra hne
    obtain ⟨head, hhead, -⟩ := headOf_byIndexed (nodup_entityVersions rows e) hne
      (indexedAt_of_mem_entityVersions hindexed)
    obtain ⟨row, hrow⟩ := exists_compactEntity (e := e) hhead
    have hmem : row ∈ compacted := (mem_of_mapM_ok hcompacted).mpr
      ⟨(e, entityVersions rows e), mem_byEntity.mpr ⟨rfl, hne⟩, hrow⟩
    obtain ⟨-, -, hid, -⟩ := compactEntity_eq_ok hrow
    exact List.find?_eq_none.mp hfind row (mem_sortBy.mpr hmem) (by simp [hid])
  | some row =>
    have hid : row.entityId = e := by simpa using List.find?_some hfind
    have hmem : row ∈ compacted := mem_sortBy.mp (List.mem_of_find?_eq_some hfind)
    obtain ⟨kv, hkv, hrow⟩ := (mem_of_mapM_ok hcompacted).mp hmem
    obtain ⟨head, hhead, hkid, hkv', hlife, hversions⟩ := compactEntity_eq_ok hrow
    obtain ⟨head', hhead', hishead⟩ := hheads kv hkv
    obtain rfl : head = head' := Except.ok.inj (hhead.symm.trans hhead')
    have heq : kv.2 = entityVersions rows e := by rw [(mem_byEntity.mp hkv).1, ← hkid, hid]
    rw [heq] at hishead hversions
    exact .inr ⟨row, head, rfl, hishead, hid, hkv', hlife, hversions⟩

end Report

end AgenticDynamics.Knowledge
