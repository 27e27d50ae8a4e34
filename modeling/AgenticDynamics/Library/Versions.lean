import AgenticDynamics.Library.Python

/-!
# The latest version of each entity

Versions of entities are ranked, and one pass over them keeps the version of the greatest rank
for each entity. What it keeps depends on the versions alone, not on their order, as long as no
two of them have one rank.
-/

namespace Python.Versions

variable {β ρ : Type} [LinearOrder ρ] (entity : β → String) (rank : β → ρ)

/-- A version replaces the one that was kept if its rank is greater. -/
def keep (d : Dict β) (v : β) : Dict β :=
  match Dict.get? (entity v) d with
  | none      => Dict.set (entity v) v d
  | some prev => if rank prev < rank v then Dict.set (entity v) v d else d

/-- The version of the greatest rank, for each entity. -/
def latest (versions : List β) : Dict β := versions.foldl (keep entity rank) []

/-- A version that no version of its entity outranks. -/
def IsLatest (versions : List β) (v : β) : Prop :=
  v ∈ versions ∧ ∀ w ∈ versions, entity w = entity v → rank w ≤ rank v

section Rules

variable {entity : β → String} {rank : β → ρ} {versions : List β} {e : String} {v w : β}

lemma get?_keep {d : Dict β} : Dict.get? e (keep entity rank d v) =
    if entity v = e then
      (Dict.get? e d).elim (some v) fun prev => if rank prev < rank v then some v else some prev
    else Dict.get? e d := by
  rw [keep]
  by_cases hentity : entity v = e
  · subst hentity
    cases hget : Dict.get? (entity v) d with
    | none => simp [Dict.get?_set]
    | some prev =>
      by_cases hrank : rank prev < rank v
      · simp [hrank, Dict.get?_set]
      · simp [hrank, hget]
  · rw [if_neg hentity]
    cases Dict.get? (entity v) d with
    | none => simp [Dict.get?_set, hentity]
    | some prev =>
      by_cases hrank : rank prev < rank v
      · simp [hrank, Dict.get?_set, hentity]
      · simp [hrank]

lemma latest_concat : latest entity rank (versions ++ [v]) =
    keep entity rank (latest entity rank versions) v := by
  rw [latest, List.foldl_append]
  rfl

lemma get?_latest_none :
    Dict.get? e (latest entity rank versions) = none ↔ ∀ w ∈ versions, entity w ≠ e := by
  induction versions using List.reverseRecOn with
  | nil => simp [latest, Dict.get?]
  | append_singleton versions v ih =>
    rw [latest_concat, get?_keep]
    by_cases hentity : entity v = e
    · rw [if_pos hentity]
      refine iff_of_false ?_ fun h => h v (by simp) hentity
      cases Dict.get? e (latest entity rank versions) with
      | none => simp
      | some prev => by_cases hrank : rank prev < rank v <;> simp [hrank]
    · rw [if_neg hentity, ih]
      simp [or_imp, forall_and, hentity]

lemma isLatest_of_get? (h : Dict.get? e (latest entity rank versions) = some v) :
    entity v = e ∧ IsLatest entity rank versions v := by
  induction versions using List.reverseRecOn generalizing v with
  | nil => simp [latest, Dict.get?] at h
  | append_singleton versions last ih =>
    rw [latest_concat, get?_keep] at h
    by_cases hentity : entity last = e
    · rw [if_pos hentity] at h
      cases hprev : Dict.get? e (latest entity rank versions) with
      | none =>
        rw [hprev] at h
        obtain rfl : last = v := Option.some_injective _ h
        refine ⟨hentity, by simp, fun w hw hsame => ?_⟩
        rcases List.mem_append.mp hw with hw | hw
        · exact absurd (hsame.trans hentity) (get?_latest_none.mp hprev w hw)
        · rw [List.mem_singleton.mp hw]
      | some prev =>
        obtain ⟨hprevEntity, hmem, hmax⟩ := ih hprev
        rw [hprev, Option.elim_some] at h
        split_ifs at h with hrank
        · obtain rfl : last = v := Option.some_injective _ h
          refine ⟨hentity, by simp, fun w hw hsame => ?_⟩
          rcases List.mem_append.mp hw with hw | hw
          · exact (hmax w hw (hsame.trans (hentity.trans hprevEntity.symm))).trans hrank.le
          · rw [List.mem_singleton.mp hw]
        · obtain rfl : prev = v := Option.some_injective _ h
          refine ⟨hprevEntity, List.mem_append_left _ hmem, fun w hw hsame => ?_⟩
          rcases List.mem_append.mp hw with hw | hw
          · exact hmax w hw hsame
          · rw [List.mem_singleton.mp hw]
            exact not_lt.mp hrank
    · rw [if_neg hentity] at h
      obtain ⟨hv, hmem, hmax⟩ := ih h
      refine ⟨hv, List.mem_append_left _ hmem, fun w hw hsame => ?_⟩
      rcases List.mem_append.mp hw with hw | hw
      · exact hmax w hw hsame
      · rw [List.mem_singleton.mp hw] at hsame
        exact absurd (hsame.trans hv) hentity

lemma get?_latest (hrank : ∀ v ∈ versions, ∀ w ∈ versions, rank v = rank w → v = w) :
    Dict.get? e (latest entity rank versions) = some v ↔
      entity v = e ∧ IsLatest entity rank versions v := by
  constructor
  · exact isLatest_of_get?
  · rintro ⟨rfl, hmem, hmax⟩
    cases hget : Dict.get? (entity v) (latest entity rank versions) with
    | none => exact absurd rfl (get?_latest_none.mp hget v hmem)
    | some w =>
      obtain ⟨hw, hwmem, hwmax⟩ := isLatest_of_get? hget
      have hle : rank w ≤ rank v := hmax w hwmem hw
      have hge : rank v ≤ rank w := hwmax v hmem hw.symm
      rw [hrank w hwmem v hmem (hle.antisymm hge)]

lemma nodup_latest : ((latest entity rank versions).map Prod.fst).Nodup := by
  induction versions using List.reverseRecOn with
  | nil => simp [latest]
  | append_singleton versions v ih =>
    rw [latest_concat, keep]
    split
    · exact Dict.nodup_set ih
    · split_ifs
      · exact Dict.nodup_set ih
      · exact ih

lemma get?_of_mem_latest {entry : String × β} (h : entry ∈ latest entity rank versions) :
    Dict.get? entry.1 (latest entity rank versions) = some entry.2 :=
  Dict.get?_of_mem h fun kv hkv hkey =>
    Dict.value_unique nodup_latest (hkey ▸ hkv : (entry.1, kv.2) ∈ _) h

end Rules

end Python.Versions
