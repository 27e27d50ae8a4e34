import AgenticDynamics.Experiment.SpecStatus

/-!
# Run families

Grouping the runs one after the other yields the runs of every key in their order, the family of the
last run first.
-/

namespace AgenticDynamics.Experiment.SpecStatus

open Python

/-- The runs under a key, with their positions. -/
def members (entries : List (RunSummary × ℕ)) (key : String) : List (RunSummary × ℕ) :=
  entries.filter fun entry => familyKey entry.1 entry.2 = key

def familyAt (runs : List RunSummary) (key : String) : List RunSummary :=
  (members runs.zipIdx key).map (·.1)

def Grouped (entries : List (RunSummary × ℕ)) (buckets : Buckets) : Prop :=
  ∀ key group, (key, group) ∈ buckets ↔
    ∃ last, (members entries key).getLast? = some last ∧
      group = ((members entries key).map (·.1), last.2)

lemma grouped_nil : Grouped [] [] := by simp [Grouped, members]

lemma members_concat (entries : List (RunSummary × ℕ)) (entry : RunSummary × ℕ) (key : String) :
    members (entries ++ [entry]) key =
      members entries key ++ if familyKey entry.1 entry.2 = key then [entry] else [] := by
  simp only [members, List.filter_append, List.filter_cons, List.filter_nil, decide_eq_true_eq]

lemma Grouped.members_eq {entries : List (RunSummary × ℕ)} {buckets : Buckets}
    (h : Grouped entries buckets) (key : String) :
    ((Dict.get? key buckets).map (·.1)).getD [] = (members entries key).map (·.1) := by
  cases hget : Dict.get? key buckets with
  | some group =>
    obtain ⟨last, -, rfl⟩ := (h key group).mp (Dict.mem_of_get? hget)
    rfl
  | none =>
    cases hlast : (members entries key).getLast? with
    | none => simp [List.getLast?_eq_none_iff.mp hlast]
    | some last =>
      have hmem := (h key _).mpr ⟨last, hlast, rfl⟩
      exact absurd rfl (Dict.get?_eq_none.mp hget _ hmem)

theorem Grouped.addRun {entries : List (RunSummary × ℕ)} {buckets : Buckets}
    (h : Grouped entries buckets) (entry : RunSummary × ℕ) :
    Grouped (entries ++ [entry]) (SpecStatus.addRun buckets entry) := by
  intro key group
  simp only [SpecStatus.addRun, Dict.mem_set, h.members_eq, Prod.mk.injEq, members_concat]
  by_cases hkey : familyKey entry.1 entry.2 = key
  · subst hkey
    simp
  · rw [if_neg hkey, List.append_nil, ← h key group]
    constructor
    · rintro (⟨rfl, -⟩ | ⟨hmem, -⟩)
      · exact absurd rfl hkey
      · exact hmem
    · exact fun hmem => .inr ⟨hmem, Ne.symm hkey⟩

theorem Grouped.foldl {done : List (RunSummary × ℕ)} {buckets : Buckets}
    (h : Grouped done buckets) (entries : List (RunSummary × ℕ)) :
    Grouped (done ++ entries) (entries.foldl SpecStatus.addRun buckets) := by
  induction entries generalizing done buckets with
  | nil => simpa using h
  | cons entry entries ih => simpa using ih (h.addRun entry)

/-- The grouped runs, newest family first. -/
def sortedBuckets (runs : List RunSummary) : Buckets :=
  (runs.zipIdx.foldl addRun []).mergeSort fun a b => b.2.2 ≤ a.2.2

lemma mem_sortedBuckets {runs : List RunSummary} {key : String} {group : List RunSummary × ℕ} :
    (key, group) ∈ sortedBuckets runs ↔
      ∃ last, (members runs.zipIdx key).getLast? = some last ∧
        group = (familyAt runs key, last.2) := by
  rw [sortedBuckets, List.mem_mergeSort]
  exact grouped_nil.foldl runs.zipIdx key group

lemma familyAt_ne_nil {runs : List RunSummary} {key : String} :
    familyAt runs key ≠ [] ↔ ∃ last, (members runs.zipIdx key).getLast? = some last := by
  rw [familyAt, Ne, List.map_eq_nil_iff, ← List.getLast?_eq_none_iff]
  exact Option.ne_none_iff_exists'

theorem mem_certifyingFamilies {runs family : List RunSummary} :
    family ∈ certifyingFamilies runs ↔ ∃ key, family = familyAt runs key ∧ family ≠ [] := by
  rw [certifyingFamilies, ← sortedBuckets, List.mem_map]
  constructor
  · rintro ⟨⟨key, group⟩, hmem, rfl⟩
    obtain ⟨last, hlast, rfl⟩ := mem_sortedBuckets.mp hmem
    exact ⟨key, rfl, familyAt_ne_nil.mpr ⟨last, hlast⟩⟩
  · rintro ⟨key, rfl, hne⟩
    obtain ⟨last, hlast⟩ := familyAt_ne_nil.mp hne
    exact ⟨(key, familyAt runs key, last.2), mem_sortedBuckets.mpr ⟨last, hlast, rfl⟩, rfl⟩

def newestKey (runs : List RunSummary) : String :=
  match runs.zipIdx.getLast? with
  | some newest => familyKey newest.1 newest.2
  | none        => ""

lemma zipIdx_getLast? (runs : List RunSummary) (last : RunSummary) :
    (runs ++ [last]).zipIdx.getLast? = some (last, runs.length) := by
  simp [List.zipIdx_append]

lemma newestKey_concat (runs : List RunSummary) (last : RunSummary) :
    newestKey (runs ++ [last]) = familyKey last runs.length := by
  rw [newestKey, zipIdx_getLast?]

lemma members_newest (runs : List RunSummary) (last : RunSummary) :
    (members (runs ++ [last]).zipIdx (newestKey (runs ++ [last]))).getLast? =
      some (last, runs.length) := by
  have hsplit : (runs ++ [last]).zipIdx = runs.zipIdx ++ [(last, runs.length)] := by
    simp [List.zipIdx_append]
  rw [newestKey_concat, hsplit, members_concat, if_pos rfl, List.getLast?_concat]

theorem certifyingFamilies_newest (runs : List RunSummary) (last : RunSummary) :
    ∃ older, certifyingFamilies (runs ++ [last]) =
      familyAt (runs ++ [last]) (newestKey (runs ++ [last])) :: older := by
  set all := runs ++ [last] with hall
  have hnewest : (newestKey all, familyAt all (newestKey all), runs.length) ∈ sortedBuckets all :=
    mem_sortedBuckets.mpr ⟨_, members_newest runs last, rfl⟩
  have hsorted : (sortedBuckets all).Pairwise fun a b => b.2.2 ≤ a.2.2 := by
    have hpairwise := @List.pairwise_mergeSort _
      (fun a b : String × List RunSummary × ℕ => decide (b.2.2 ≤ a.2.2))
      (by intro a b c; simp; omega) (by intro a b; simp; omega) (all.zipIdx.foldl addRun [])
    simpa [sortedBuckets] using hpairwise
  cases hbuckets : sortedBuckets all with
  | nil => simp [hbuckets] at hnewest
  | cons first rest =>
    refine ⟨rest.map (·.2.1), ?_⟩
    obtain ⟨key, group⟩ := first
    obtain ⟨found, hfound, rfl⟩ :=
      mem_sortedBuckets.mp (show (key, group) ∈ sortedBuckets all by simp [hbuckets])
    -- no other family has a newer member than the first, and none is newer than the last run
    have hle : runs.length ≤ found.2 := by
      rw [hbuckets, List.mem_cons] at hnewest
      rw [hbuckets, List.pairwise_cons] at hsorted
      rcases hnewest with heq | hmem
      · simp only [Prod.mk.injEq] at heq
        exact heq.2.2.le
      · exact hsorted.1 _ hmem
    obtain ⟨hmem, hkey⟩ := List.mem_filter.mp (List.mem_of_getLast? hfound)
    have hget := List.mem_zipIdx_iff_getElem?.mp hmem
    have hlength : found.2 < runs.length + 1 := by
      have hbound := (List.getElem?_eq_some_iff.mp hget).1
      simpa [hall] using hbound
    have hindex : found.2 = runs.length := by omega
    have hlast : found.1 = last := by
      rw [hindex, hall] at hget
      simpa using hget.symm
    have hsame : key = newestKey all := by
      rw [hall, newestKey_concat, ← hlast, ← hindex]
      exact (of_decide_eq_true hkey).symm
    rw [certifyingFamilies, ← sortedBuckets, hbuckets, List.map_cons, hsame]

end AgenticDynamics.Experiment.SpecStatus
