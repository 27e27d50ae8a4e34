import AgenticDynamics.Knowledge.Compaction

/-!
# The drain guards

The manifest records how many versions the compacted index has and how many valid rows its log.
A later manifest that has fewer of either is refused.
-/

namespace AgenticDynamics.Knowledge

open Python StableSort

/-! ### Counts -/

def registryVersionCount (registry : List RegistryRow) : ℕ :=
  (registry.map fun row => if row.versions = [] then 1 else row.versions.length).sum

/-- `_count_registry_source_rows`; none stands for a file that does not exist. -/
def countRegistrySourceRows : Option (List Line) → Except CompactionError ℕ
  | none       => .ok 0
  | some lines => (iterRegistryRows lines).map List.length

/-- `_read_previous_registry_versions`, of a manifest that holds the registry. -/
def previousRegistryVersions (registry : List RegistryRow) : Option ℕ :=
  if registry = [] then none else some (registryVersionCount registry)

/-! ### Guards -/

def detectRegistryDrain (newRegistry : List RegistryRow) (previousVersions : Option ℕ) :
    Option (ℕ × ℕ) :=
  match previousVersions with
  | none          => none
  | some previous =>
    if registryVersionCount newRegistry < previous then
      some (registryVersionCount newRegistry, previous)
    else none

def detectRegistrySourceDrain (newSourceRows previousSourceRows : Option ℕ) : Option (ℕ × ℕ) :=
  match newSourceRows, previousSourceRows with
  | some new, some previous => if new < previous then some (new, previous) else none
  | _, _                    => none

/-! ### The rows of a longer log -/

section Drain

variable {log more kept : List Line} {rows : List Row} {registry : List RegistryRow}

lemma iterRegistryRows_append (h : iterRegistryRows (log ++ more) = .ok rows) :
    ∃ before after, iterRegistryRows log = .ok before ∧ rows = before ++ after := by
  induction log generalizing rows with
  | nil => exact ⟨[], rows, rfl, rfl⟩
  | cons line log ih =>
    cases line with
    | blank => exact ih h
    | damaged => exact ih h
    | other t => cases h
    | row r =>
      simp only [List.cons_append, iterRegistryRows, bind_eq_ok] at h
      obtain ⟨rows', hrows', h⟩ := h
      obtain ⟨before, after, hbefore, rfl⟩ := ih hrows'
      cases h
      refine ⟨if r.Attributed then r :: before else before, after, ?_, ?_⟩
      · simp only [iterRegistryRows, hbefore]
        rfl
      · split_ifs
        · rfl
        · rfl

lemma iterRegistryRows_sublist (hkept : kept.Sublist log) (h : iterRegistryRows log = .ok rows) :
    ∃ rows', iterRegistryRows kept = .ok rows' := by
  induction hkept generalizing rows with
  | slnil => exact ⟨[], rfl⟩
  | cons line _ ih =>
    cases line with
    | blank => exact ih h
    | damaged => exact ih h
    | other t => cases h
    | row r =>
      simp only [iterRegistryRows, bind_eq_ok] at h
      obtain ⟨rows', hrows', -⟩ := h
      exact ih hrows'
  | cons_cons line _ ih =>
    cases line with
    | blank => exact ih h
    | damaged => exact ih h
    | other t => cases h
    | row r =>
      simp only [iterRegistryRows, bind_eq_ok] at h
      obtain ⟨rows', hrows', -⟩ := h
      obtain ⟨kept', hkept'⟩ := ih hrows'
      exact ⟨_, by simp only [iterRegistryRows, hkept']; rfl⟩

/-! ### The versions of a compacted index -/

lemma compactEntity_versions {e : String} {vs : List Version} {row : RegistryRow} (hne : vs ≠ [])
    (h : compactEntity e vs = .ok row) :
    (if row.versions = [] then 1 else row.versions.length) = vs.length := by
  obtain ⟨head, -, -, -, -, hversions⟩ := compactEntity_eq_ok h
  have hlength : row.versions.length = vs.length := by
    have hclosed : (closeOpen head (byIndexed vs)).length = (byIndexed vs).length := by
      rw [closeOpen]
      split_ifs
      · exact List.length_map _
      · rfl
    rw [hversions, List.length_map, hclosed]
    exact (byIndexed_perm vs).length_eq
  rw [if_neg, hlength]
  intro hempty
  rw [hempty, List.length_nil] at hlength
  exact hne (List.length_eq_zero_iff.mp hlength.symm)

lemma registryVersionCount_eq (hrows : iterRegistryRows log = .ok rows)
    (h : compactRegistryIndex (some log) = .ok registry) :
    registryVersionCount registry = (firsts (rows.map Row.kid)).length := by
  simp only [compactRegistryIndex, hrows, bind_eq_ok, Except.ok.injEq, exists_eq_left'] at h
  obtain ⟨compacted, hcompacted, h⟩ := h
  cases h
  have hgroups := forall₂_of_mapM hcompacted
  clear hcompacted
  have hcounts : (compacted.map fun row => if row.versions = [] then 1 else row.versions.length) =
      (byEntity (versions rows)).map fun kv => kv.2.length := by
    have hne : ∀ kv ∈ byEntity (versions rows), kv.2 ≠ [] := fun kv hkv => (mem_byEntity.mp hkv).2
    rw [versions] at hne ⊢
    generalize byEntity (derivedVersions (byKnowledgeId rows)) = groups at hgroups hne
    induction hgroups with
    | nil => rfl
    | @cons kv row _ _ hrow _ ih =>
      rw [List.map_cons, List.map_cons, compactEntity_versions (hne kv (by simp)) hrow,
        ih fun kv hkv => hne kv (List.mem_cons_of_mem _ hkv)]
  have hperm := (sortBy_perm RegistryRow.entityId compacted).map fun row : RegistryRow =>
    if row.versions = [] then 1 else row.versions.length
  have hflat := (Dict.flatMap_group (fun v : Version => v.row.entity) (versions rows)).length_eq
  rw [registryVersionCount, hperm.sum_eq, hcounts, ← List.length_flatMap, byEntity_eq, hflat,
    ← kids_versions, List.length_map]

lemma exists_compactRegistryIndex (hrows : iterRegistryRows log = .ok rows)
    (hindexed : ∀ r ∈ rows, r.indexedAt.isSome) :
    ∃ registry, compactRegistryIndex (some log) = .ok registry := by
  obtain ⟨compacted, hcompacted⟩ : ∃ compacted,
      (byEntity (versions rows)).mapM (fun kv => compactEntity kv.1 kv.2) = .ok compacted := by
    refine mapM_isOk.mpr fun kv hkv => ?_
    obtain ⟨heq, hne⟩ := mem_byEntity.mp hkv
    rw [heq] at hne ⊢
    obtain ⟨head, hhead, -⟩ := headOf_byIndexed (nodup_entityVersions _ _) hne
      (indexedAt_of_mem_entityVersions hindexed)
    exact exists_compactEntity hhead
  refine ⟨sortBy RegistryRow.entityId compacted, ?_⟩
  rw [versions] at hcompacted
  simp only [compactRegistryIndex, hrows, hcompacted, bind, Except.bind]
  rfl

/-! ### What the guards report -/

end Drain

/-- A version, its tombstone, and the version of another entity that is appended. -/
def retractedLog : List Line :=
  [.row { knowledgeId := some "k1", entityId := some "e1", lifecycleState := some "current"
          indexedAt := some "2026-09-01T10:00:00Z" },
    .row { knowledgeId := some "k1", entityId := some "e1", lifecycleState := some "tombstoned"
           indexedAt := some "2026-09-01T11:00:00Z" }]

def appendedLog : List Line :=
  [.damaged, .row { knowledgeId := some "k2", entityId := some "e2", lifecycleState := some "current"
                    indexedAt := some "2026-09-01T12:00:00Z" }]

end AgenticDynamics.Knowledge
