import AgenticDynamics.Knowledge.DamagedLog

/-!
# What a damaged file says

The row of a version is what the rows of the version say last, among those that are not older than
the ones before them. With it, what a compaction needs to return is read off the lines.
-/

namespace AgenticDynamics.Knowledge.DamagedLog

open Python StableSort

/-! ### What the rows of a version say -/

def kidOf (row : Dict Json) : Option Key := keyOf (field row "knowledge_id")

/-- The versions, in the order in which rows of them appear first. -/
def versionIds (rows : List (Dict Json)) : List Key :=
  rows.foldl (fun ids row => (kidOf row).elim ids fun k => if k ∈ ids then ids else ids ++ [k]) []

section Said

variable (host : CompactionHost) (rows : List (Dict Json)) (k : Key)

/-- Take a row that is not older than those taken before it. -/
def take (taken : List (Dict Json)) (row : Dict Json) : List (Dict Json) :=
  if ∀ earlier ∈ taken, indexedText host earlier ≤ indexedText host row then taken ++ [row]
  else taken

def counted : List (Dict Json) :=
  (rows.filter fun row => kidOf row = some k).foldl (take host) []

/-- The last value for a field that is not null. -/
def lastValue (rows : List (Dict Json)) (name : String) : Json :=
  ((rows.map fun row => field row name).filter fun v => !isNull v).getLast?.getD .null

/-- What the rows of a version say of a field. -/
def said (name : String) : Json := lastValue (counted host rows k) name

/-- The stamp that a version is sorted by. -/
def stamp : String :=
  (Json.orElse (some (said host rows k "indexed_at")) (.str "")).text host.toRuntime

def Superseded : Prop :=
  ∃ k' ∈ versionIds rows, (said host rows k' "supersedes").truthy ∧
    keyOf (said host rows k' "supersedes") = some k

instance : Decidable (Superseded host rows k) :=
  inferInstanceAs (Decidable (∃ k' ∈ versionIds rows, _))

def stateOf : Lifecycle :=
  if Superseded host rows k then .superseded
  else if isTombstone (said host rows k "lifecycle_state") then .tombstoned
  else .current

/-- The versions of an entity that are in a state. -/
def versionsIn (state : Lifecycle) (e : Key) : List Key :=
  (versionIds rows).filter fun k =>
    keyOf (said host rows k "entity_id") = some e ∧ stateOf host rows k = state

end Said

/-- No version points to a list or an object or is of one; the stamps of the latest deleted and the
latest open version of an entity can be compared; and the entities are one, or all texts, or all
numbers. -/
structure Compactable (host : CompactionHost) (rows : List (Dict Json)) : Prop where
  pointers : ∀ k ∈ versionIds rows, (said host rows k "supersedes").truthy →
    (said host rows k "supersedes").hashable
  entities : ∀ k ∈ versionIds rows, (said host rows k "entity_id").hashable
  heads : ∀ e t l, Latest (stamp host rows) (versionsIn host rows .tombstoned e) t →
    Latest (stamp host rows) (versionsIn host rows .current e) l → ∃ answer,
      host.ge (said host rows t "indexed_at") (said host rows l "indexed_at") = .ok answer
  sortable : (∀ k ∈ versionIds rows, ∀ k' ∈ versionIds rows,
      keyOf (said host rows k "entity_id") = keyOf (said host rows k' "entity_id")) ∨
    (∀ k ∈ versionIds rows, ∃ s, keyOf (said host rows k "entity_id") = some (.text s)) ∨
    ∀ k ∈ versionIds rows, ∃ x, keyOf (said host rows k "entity_id") = some (.number x)

/-! ### The merged row -/

section Merged

variable {host : CompactionHost} {rows : List (Dict Json)} {k : Key}

lemma get?_merge {old new : Dict Json} (hnew : (new.map Prod.fst).Nodup) (name : String) :
    (merge old new).get? name =
      if isNull (field new name) then old.get? name else some (field new name) := by
  rw [merge]
  induction new generalizing old with
  | nil => simp [field, Dict.get?, isNull]
  | cons kv new ih =>
    obtain ⟨hfresh, hnew⟩ := List.nodup_cons.mp hnew
    rw [List.foldl_cons, ih hnew]
    by_cases hname : kv.1 = name
    · have hrest : field new name = .null := by
        have hnone : Dict.get? name new = none := by
          rw [Dict.get?, Option.map_eq_none_iff, List.find?_eq_none]
          intro kv' hkv' heq
          refine hfresh (List.mem_map.mpr ⟨kv', hkv', ?_⟩)
          rw [of_decide_eq_true heq, hname]
        rw [field, hnone]
        rfl
      have hfirst : field (kv :: new) name = kv.2 := by simp [field, Dict.get?, hname]
      have hnull : isNull .null = true := rfl
      rw [hrest, hfirst, if_pos hnull]
      cases hnull : isNull kv.2 with
      | true => simp
      | false => simp [Dict.get?_set, hname]
    · have hrest : field (kv :: new) name = field new name := by
        simp [field, Dict.get?, hname]
      rw [hrest]
      cases isNull kv.2 with
      | true => simp
      | false => simp [Dict.get?_set, hname]

lemma field_merge {old new : Dict Json} (hnew : (new.map Prod.fst).Nodup) (name : String) :
    field (merge old new) name =
      if isNull (field new name) then field old name else field new name := by
  rw [field, get?_merge hnew]
  split <;> rfl

lemma lastValue_concat (rows : List (Dict Json)) (row : Dict Json) (name : String) :
    lastValue (rows ++ [row]) name =
      if isNull (field row name) then lastValue rows name else field row name := by
  rw [lastValue, List.map_append, List.filter_append]
  cases hnull : isNull (field row name) with
  | true => simp [lastValue, hnull]
  | false => simp [hnull]

def mergeAll : List (Dict Json) → Option (Dict Json)
  | []          => none
  | row :: rows => some (rows.foldl merge row)

lemma mergeAll_concat (rows : List (Dict Json)) (row : Dict Json) :
    mergeAll (rows ++ [row]) = some ((mergeAll rows).elim row fun old => merge old row) := by
  cases rows with
  | nil => rfl
  | cons first rows => simp [mergeAll]

lemma isNull_iff {v : Json} : isNull v = true ↔ v = .null := by
  cases v <;> simp [isNull]

lemma field_mergeAll {taken : List (Dict Json)} (hkeys : ∀ row ∈ taken, (row.map Prod.fst).Nodup)
    {row : Dict Json} (h : mergeAll taken = some row) (name : String) :
    field row name = lastValue taken name := by
  induction taken using List.reverseRecOn generalizing row with
  | nil => cases h
  | append_singleton taken last ih =>
    have hlast := hkeys last (by simp)
    rw [mergeAll_concat, Option.some.injEq] at h
    rw [lastValue_concat]
    cases hprev : mergeAll taken with
    | none =>
      have hnil : taken = [] := by
        cases taken with
        | nil => rfl
        | cons a l => cases hprev
      rw [hprev] at h
      have hrow : last = row := h
      rw [hrow, hnil]
      by_cases hnull : isNull (field row name) = true
      · rw [if_pos hnull, isNull_iff.mp hnull]
        rfl
      · rw [if_neg hnull]
    | some old =>
      rw [hprev] at h
      have hrow : merge old last = row := h
      rw [← hrow, field_merge hlast,
        ih (fun row hrow => hkeys row (List.mem_append_left _ hrow)) hprev]

lemma indexedText_eq (row : Dict Json) : indexedText host row =
    (Json.orElse (some (field row "indexed_at")) (.str "")).text host.toRuntime := by
  rw [indexedText, field]
  cases Dict.get? "indexed_at" row with
  | none => rfl
  | some v => rfl

lemma empty_le (s : String) : "" ≤ s := by
  refine not_lt.mp fun h => ?_
  rw [String.lt_iff_toList_lt] at h
  exact List.not_lt_nil _ h

lemma indexedText_merge {old new : Dict Json} (hnew : (new.map Prod.fst).Nodup)
    (hle : indexedText host old ≤ indexedText host new) :
    indexedText host (merge old new) = indexedText host new := by
  rw [indexedText_eq, indexedText_eq new, field_merge hnew]
  by_cases hnull : isNull (field new "indexed_at") = true
  · have hempty : indexedText host new = "" := by
      rw [indexedText_eq, isNull_iff.mp hnull]
      rfl
    rw [hempty] at hle
    rw [if_pos hnull, ← indexedText_eq, ← indexedText_eq, hempty]
    exact le_antisymm hle (empty_le _)
  · rw [if_neg hnull]

lemma pairwise_take {taken : List (Dict Json)}
    (h : taken.Pairwise fun a b => indexedText host a ≤ indexedText host b) (row : Dict Json) :
    (take host taken row).Pairwise fun a b => indexedText host a ≤ indexedText host b := by
  rw [take]
  split
  · rename_i hlater
    refine List.pairwise_append.mpr ⟨h, by simp, fun a ha b hb => ?_⟩
    rw [List.mem_singleton.mp hb]
    exact hlater a ha
  · exact h

lemma indexedText_mergeAll {taken : List (Dict Json)}
    (hkeys : ∀ row ∈ taken, (row.map Prod.fst).Nodup)
    (hsorted : taken.Pairwise fun a b => indexedText host a ≤ indexedText host b)
    {row : Dict Json} (h : mergeAll taken = some row) :
    ∃ init last, taken = init ++ [last] ∧ indexedText host row = indexedText host last := by
  induction taken using List.reverseRecOn generalizing row with
  | nil => cases h
  | append_singleton taken last ih =>
    obtain ⟨hsorted, -, hlater⟩ := List.pairwise_append.mp hsorted
    rw [mergeAll_concat, Option.some.injEq] at h
    refine ⟨taken, last, rfl, ?_⟩
    cases hprev : mergeAll taken with
    | none =>
      rw [hprev] at h
      exact congrArg _ (h : last = row).symm
    | some old =>
      rw [hprev] at h
      have hrow : merge old last = row := h
      obtain ⟨init, prev, htaken, hold⟩ :=
        ih (fun row hrow => hkeys row (List.mem_append_left _ hrow)) hsorted hprev
      rw [← hrow]
      refine indexedText_merge (hkeys last (by simp)) ?_
      rw [hold]
      exact hlater prev (by simp [htaken]) last (by simp)

lemma mergeAll_take {taken : List (Dict Json)} (hkeys : ∀ row ∈ taken, (row.map Prod.fst).Nodup)
    (hsorted : taken.Pairwise fun a b => indexedText host a ≤ indexedText host b)
    (row : Dict Json) : mergeAll (take host taken row) =
      some ((mergeAll taken).elim row fun old =>
        if indexedText host old ≤ indexedText host row then merge old row else old) := by
  rw [take]
  cases hprev : mergeAll taken with
  | none =>
    have hnil : taken = [] := by
      cases taken with
      | nil => rfl
      | cons a l => cases hprev
    simp [hnil, mergeAll]
  | some old =>
    obtain ⟨init, last, rfl, hold⟩ := indexedText_mergeAll hkeys hsorted hprev
    have hall : (∀ earlier ∈ init ++ [last], indexedText host earlier ≤ indexedText host row) ↔
        indexedText host old ≤ indexedText host row := by
      rw [hold]
      refine ⟨fun h => h last (by simp), fun h earlier hearlier => ?_⟩
      rcases List.mem_append.mp hearlier with hearlier | hearlier
      · exact ((List.pairwise_append.mp hsorted).2.2 earlier hearlier last (by simp)).trans h
      · rwa [List.mem_singleton.mp hearlier]
    by_cases hle : indexedText host old ≤ indexedText host row
    · rw [if_pos (hall.mpr hle), mergeAll_concat, hprev]
      simp [hle]
    · rw [if_neg (mt hall.mp hle), hprev]
      simp [hle]

lemma counted_spec (hkeys : ∀ row ∈ rows, (row.map Prod.fst).Nodup) (k : Key) :
    (∀ row ∈ counted host rows k, (row.map Prod.fst).Nodup) ∧
      (counted host rows k).Pairwise fun a b => indexedText host a ≤ indexedText host b := by
  have hof : ∀ row ∈ rows.filter (fun row => kidOf row = some k), (row.map Prod.fst).Nodup :=
    fun row hrow => hkeys row (List.mem_of_mem_filter hrow)
  rw [counted]
  generalize rows.filter (fun row => kidOf row = some k) = l at hof
  induction l using List.reverseRecOn with
  | nil => simp
  | append_singleton l row ih =>
    obtain ⟨hnodup, hsorted⟩ := ih fun row hrow => hof row (List.mem_append_left _ hrow)
    rw [List.foldl_append, List.foldl_cons, List.foldl_nil]
    refine ⟨fun row' hrow' => ?_, pairwise_take hsorted row⟩
    rw [take] at hrow'
    split at hrow'
    · rcases List.mem_append.mp hrow' with hrow' | hrow'
      · exact hnodup row' hrow'
      · exact hof row' (by simp [List.mem_singleton.mp hrow'])
    · exact hnodup row' hrow'

lemma get?_foldRow (hkeys : ∀ row ∈ rows, (row.map Prod.fst).Nodup) :
    (rows.foldl (foldRow host) []).get? k = mergeAll (counted host rows k) := by
  induction rows using List.reverseRecOn with
  | nil => rfl
  | append_singleton rows row ih =>
    have hkeys' : ∀ row ∈ rows, (row.map Prod.fst).Nodup := fun row hrow =>
      hkeys row (List.mem_append_left _ hrow)
    have ih := ih hkeys'
    rw [List.foldl_append, List.foldl_cons, List.foldl_nil, foldRow]
    have hstep : counted host (rows ++ [row]) k =
        if kidOf row = some k then take host (counted host rows k) row
        else counted host rows k := by
      rw [counted, List.filter_append, List.foldl_append]
      by_cases hk : kidOf row = some k <;> simp [counted, hk]
    rw [hstep]
    cases hkid : keyOf (field row "knowledge_id") with
    | none => simpa [kidOf, hkid] using ih
    | some kid =>
      obtain ⟨hnodup, hsorted⟩ := @counted_spec host _ hkeys' k
      rw [Option.elim_some, fold]
      by_cases hk : kid = k
      · subst hk
        have hself : kidOf row = some kid := hkid
        rw [if_pos hself, mergeAll_take hnodup hsorted, ← ih]
        cases hget : Table.get? kid (rows.foldl (foldRow host) []) with
        | none => simp [Table.get?_set]
        | some old =>
          by_cases hle : indexedText host old ≤ indexedText host row
          · simp [hle, Table.get?_set]
          · simp [hle, hget]
      · have hne : ¬ kidOf row = some k := by simp [kidOf, hkid, hk]
        rw [if_neg hne, ← ih]
        split
        · simp [Table.get?_set, hk]
        · split
          · simp [Table.get?_set, hk]
          · rfl

lemma keys_foldRow (rows : List (Dict Json)) :
    (rows.foldl (foldRow host) []).map Prod.fst = versionIds rows := by
  induction rows using List.reverseRecOn with
  | nil => rfl
  | append_singleton rows row ih =>
    rw [versionIds, List.foldl_append, List.foldl_append, List.foldl_cons, List.foldl_cons,
      List.foldl_nil, List.foldl_nil, ← versionIds, ← ih, foldRow, kidOf]
    cases keyOf (field row "knowledge_id") with
    | none => rfl
    | some kid =>
      rw [Option.elim_some, Option.elim_some, ← Table.keys_set (v := row), fold]
      split
      · rfl
      · rename_i existing hget
        have hmem : kid ∈ (rows.foldl (foldRow host) []).map Prod.fst :=
          Table.get?_isSome.mp (by simp [hget])
        split
        · rw [Table.keys_set, Table.keys_set]
        · rw [Table.keys_set, if_pos hmem]

end Merged

/-! ### The states of the versions -/

lemma isSome_addSuccessor {l : List (Dict Json)} {k : Key} :
    ((l.foldl addSuccessor []).get? k).isSome ↔ ∃ row ∈ l, (field row "supersedes").truthy ∧
      keyOf (field row "supersedes") = some k := by
  induction l using List.reverseRecOn with
  | nil => simp [Table.get?]
  | append_singleton l row ih =>
    have hsplit : (∃ row' ∈ l ++ [row], (field row' "supersedes").truthy = true ∧
          keyOf (field row' "supersedes") = some k) ↔
        (∃ row' ∈ l, (field row' "supersedes").truthy = true ∧
          keyOf (field row' "supersedes") = some k) ∨
        ((field row "supersedes").truthy = true ∧ keyOf (field row "supersedes") = some k) := by
      simp only [List.mem_append, List.mem_singleton, or_and_right, exists_or, exists_eq_left]
    rw [hsplit, ← ih, List.foldl_append, List.foldl_cons, List.foldl_nil, addSuccessor]
    by_cases htruthy : (field row "supersedes").truthy = true
    · cases hkey : keyOf (field row "supersedes") with
      | none => simp [htruthy]
      | some k' =>
        by_cases hk : k' = k
        · simp [htruthy, Table.get?_set, hk]
        · simp [htruthy, Table.get?_set, hk]
    · simp [htruthy]

lemma comparable_iff {host : CompactionHost} {a b : Dict Json} : Comparable host a b ↔
    ∃ answer, host.ge (field a "indexed_at") (field b "indexed_at") = .ok answer := by
  constructor
  · rintro ⟨t, l, ht, hl, hanswer⟩
    simpa [field, ht, hl] using hanswer
  · rintro ⟨answer, hanswer⟩
    have hsaid : ∀ row : Dict Json, isNull (field row "indexed_at") = false →
        row.get? "indexed_at" = some (field row "indexed_at") := by
      intro row hrow
      cases hget : Dict.get? "indexed_at" row with
      | none => simp [field, hget, isNull] at hrow
      | some v => simp [field, hget]
    have hnull : ¬ (isNull (field a "indexed_at") ∨ isNull (field b "indexed_at")) := by
      intro hnull
      obtain ⟨cls, hcls⟩ := host.ge_null _ _ hnull
      rw [hanswer] at hcls
      cases hcls
    push Not at hnull
    exact ⟨_, _, hsaid a (by simpa using hnull.1), hsaid b (by simpa using hnull.2), answer,
      hanswer⟩

section States

variable {host : CompactionHost} {rows : List (Dict Json)}
  (hkeys : ∀ row ∈ rows, (row.map Prod.fst).Nodup)
include hkeys

lemma field_of_mem {kv : Key × Dict Json} (hkv : kv ∈ rows.foldl (foldRow host) [])
    (name : String) : field kv.2 name = said host rows kv.1 name := by
  have hget := (Table.mem_iff (nodup_foldRow rows)).mp hkv
  rw [get?_foldRow hkeys] at hget
  exact field_mergeAll (counted_spec hkeys kv.1).1 hget name

lemma superseded_iff {k : Key} :
    ((((rows.foldl (foldRow host) []).map Prod.snd).foldl addSuccessor []).get? k).isSome ↔
      Superseded host rows k := by
  rw [isSome_addSuccessor, Superseded, ← @keys_foldRow host]
  simp only [List.mem_map]
  constructor
  · rintro ⟨_, ⟨kv, hkv, rfl⟩, hnames⟩
    exact ⟨kv.1, ⟨kv, hkv, rfl⟩, by rwa [← field_of_mem hkeys hkv]⟩
  · rintro ⟨_, ⟨kv, hkv, rfl⟩, hnames⟩
    exact ⟨kv.2, ⟨kv, hkv, rfl⟩, by rwa [field_of_mem hkeys hkv]⟩

lemma version_spec {v : Version} (hv : v ∈ versionsOf (rows.foldl (foldRow host) [])) :
    v.lifecycle = stateOf host rows v.kid ∧
      ∀ name, field v.row name = said host rows v.kid name := by
  obtain ⟨kv, hkv, rfl⟩ := List.mem_map.mp hv
  have hfield := field_of_mem hkeys hkv
  have hnamed := @superseded_iff host rows hkeys kv.1
  refine ⟨?_, hfield⟩
  have hstate : (deriveLifecycle kv.1 kv.2
      (((rows.foldl (foldRow host) []).map Prod.snd).foldl addSuccessor [])).1 =
      stateOf host rows kv.1 := by
    rw [deriveLifecycle, stateOf, ← hfield]
    cases hget : Table.get? kv.1
        (((rows.foldl (foldRow host) []).map Prod.snd).foldl addSuccessor []) with
    | some successor =>
      rw [hget] at hnamed
      rw [if_pos (hnamed.mp rfl)]
    | none =>
      have hnot : ¬ Superseded host rows kv.1 := fun h => by
        have hsome := hnamed.mpr h
        rw [hget] at hsome
        cases hsome
      rw [if_neg hnot]
      by_cases hdeleted : isTombstone (field kv.2 "lifecycle_state") = true
      · rw [if_pos hdeleted, if_pos hdeleted]
      · rw [if_neg hdeleted, if_neg hdeleted]
  exact hstate

omit hkeys in
lemma kids_versionsOf :
    (versionsOf (rows.foldl (foldRow host) [])).map Version.kid = versionIds rows := by
  rw [← @keys_foldRow host, versionsOf, derivedVersions, List.map_map]
  rfl

omit hkeys in
lemma forall_ids {P : Key → Prop} : (∀ k ∈ versionIds rows, P k) ↔
    ∀ v ∈ versionsOf (rows.foldl (foldRow host) []), P v.kid := by
  rw [← @kids_versionsOf host rows, List.forall_mem_map]

lemma versionsIn_eq (state : Lifecycle) (e : Key) : versionsIn host rows state e =
    ((ofEntity (versionsOf (rows.foldl (foldRow host) [])) e).filter
      fun v => v.lifecycle = state).map Version.kid := by
  rw [versionsIn, ← @kids_versionsOf host rows, List.filter_map, ofEntity, List.filter_filter]
  refine congrArg _ (List.filter_congr fun v hv => ?_)
  obtain ⟨hstate, hfield⟩ := version_spec hkeys hv
  simp [Version.entity?, hstate, hfield, Bool.and_comm]

lemma latest_versionsIn {state : Lifecycle} {e k : Key} :
    Latest (stamp host rows) (versionsIn host rows state e) k ↔
      ∃ v, Latest (fun v => indexedText host v.row)
        ((ofEntity (versionsOf (rows.foldl (foldRow host) [])) e).filter
          fun v => v.lifecycle = state) v ∧ v.kid = k := by
  rw [versionsIn_eq hkeys, latest_map]
  refine exists_congr fun v => and_congr_left' (latest_congr fun w hw => ?_)
  have hmem := List.mem_of_mem_filter (List.mem_of_mem_filter hw)
  rw [stamp, indexedText_eq, (version_spec hkeys hmem).2]

lemma tableCompacts_iff :
    TableCompacts host (rows.foldl (foldRow host) []) ↔ Compactable host rows := by
  have hspec := fun v hv => @version_spec host rows hkeys v hv
  have hrows : ∀ {P : Json → Prop} (name : String),
      (∀ kv ∈ rows.foldl (foldRow host) [], P (field kv.2 name)) ↔
        ∀ k ∈ versionIds rows, P (said host rows k name) := by
    intro P name
    rw [← @keys_foldRow host, List.forall_mem_map]
    exact forall₂_congr fun kv hkv => by rw [field_of_mem hkeys hkv]
  have hheads : HeadsComparable host (versionsOf (rows.foldl (foldRow host) [])) ↔
      ∀ e t l, Latest (stamp host rows) (versionsIn host rows .tombstoned e) t →
        Latest (stamp host rows) (versionsIn host rows .current e) l → ∃ answer,
          host.ge (said host rows t "indexed_at") (said host rows l "indexed_at") = .ok answer := by
    constructor
    · intro h e t l ht hl
      obtain ⟨vt, hvt, rfl⟩ := (latest_versionsIn hkeys).mp ht
      obtain ⟨vl, hvl, rfl⟩ := (latest_versionsIn hkeys).mp hl
      have hcompare := comparable_iff.mp (h e vt vl hvt hvl)
      rwa [(hspec vt (List.mem_of_mem_filter (List.mem_of_mem_filter hvt.mem))).2,
        (hspec vl (List.mem_of_mem_filter (List.mem_of_mem_filter hvl.mem))).2] at hcompare
    · intro h e vt vl hvt hvl
      refine comparable_iff.mpr ?_
      rw [(hspec vt (List.mem_of_mem_filter (List.mem_of_mem_filter hvt.mem))).2,
        (hspec vl (List.mem_of_mem_filter (List.mem_of_mem_filter hvl.mem))).2]
      exact h e vt.kid vl.kid ((latest_versionsIn hkeys).mpr ⟨vt, hvt, rfl⟩)
        ((latest_versionsIn hkeys).mpr ⟨vl, hvl, rfl⟩)
  have hentity : ∀ v ∈ versionsOf (rows.foldl (foldRow host) []),
      v.entity? = keyOf (said host rows v.kid "entity_id") := fun v hv => by
    rw [Version.entity?, (hspec v hv).2]
  have hsortable : Sortable (versionsOf (rows.foldl (foldRow host) [])) ↔
      (∀ k ∈ versionIds rows, ∀ k' ∈ versionIds rows,
        keyOf (said host rows k "entity_id") = keyOf (said host rows k' "entity_id")) ∨
      (∀ k ∈ versionIds rows, ∃ s, keyOf (said host rows k "entity_id") = some (.text s)) ∨
      ∀ k ∈ versionIds rows, ∃ x, keyOf (said host rows k "entity_id") = some (.number x) := by
    simp only [@forall_ids host]
    refine or_congr ?_ (or_congr ?_ ?_)
    · exact forall₂_congr fun v hv => forall₂_congr fun w hw => by rw [hentity v hv, hentity w hw]
    · exact forall₂_congr fun v hv => by rw [hentity v hv]
    · exact forall₂_congr fun v hv => by rw [hentity v hv]
  constructor
  · rintro ⟨hpointers, hentities, hcomparable, hids⟩
    exact ⟨(hrows (P := fun v => v.truthy → v.hashable) "supersedes").mp hpointers,
      (hrows (P := fun v => v.hashable) "entity_id").mp hentities, hheads.mp hcomparable,
      hsortable.mp hids⟩
  · rintro ⟨hpointers, hentities, hcomparable, hids⟩
    exact ⟨(hrows (P := fun v => v.truthy → v.hashable) "supersedes").mpr hpointers,
      (hrows (P := fun v => v.hashable) "entity_id").mpr hentities, hheads.mpr hcomparable,
      hsortable.mpr hids⟩

end States

/-! ### When a compaction survives -/

section Survival

variable {host : CompactionHost} {lines : List String}

/-- The line has a row that can be attributed. -/
def isRow (host : CompactionHost) (line : String) : Bool := (rowOf host line).isSome

/-- A compaction returns what it returns on the lines that have rows. -/
def Survives (host : CompactionHost) (lines : List String) : Prop :=
  ∃ index, compactRegistryIndex host (some lines) = .ok index ∧
    compactRegistryIndex host (some (lines.filter (isRow host))) = .ok index

lemma filterMap_isRow (lines : List String) :
    (lines.filter (isRow host)).filterMap (rowOf host) = lines.filterMap (rowOf host) := by
  rw [List.filterMap_filter]
  refine List.filterMap_congr fun line _ => ?_
  rw [isRow]
  cases rowOf host line <;> simp

lemma compact_filter (hread : ∀ line ∈ lines, Readable host line) :
    compactRegistryIndex host (some (lines.filter (isRow host))) =
      compactRegistryIndex host (some lines) := by
  have htable : byKnowledgeId host lines = .ok (versionTable host lines) :=
    byKnowledgeId_eq_ok.mpr ⟨hread, rfl⟩
  have hrows : byKnowledgeId host (lines.filter (isRow host)) = .ok (versionTable host lines) := by
    refine byKnowledgeId_eq_ok.mpr ⟨fun line hline => hread line (List.mem_of_mem_filter hline), ?_⟩
    rw [versionTable, versionTable, filterMap_isRow]
  rw [compactRegistryIndex, compactRegistryIndex, htable, hrows]

lemma nodup_row {row : Dict Json} (hrow : row ∈ lines.filterMap (rowOf host)) :
    (row.map Prod.fst).Nodup := by
  obtain ⟨line, -, hline⟩ := List.mem_filterMap.mp hrow
  simp only [rowOf, readLine] at hline
  by_cases hblank : strip line = ""
  · simp [hblank] at hline
  · simp only [hblank, if_false] at hline
    cases hloads : host.loads (strip line) with
    | error fault =>
      obtain ⟨cls, message⟩ := fault
      by_cases hcls : cls = "JSONDecodeError" <;> simp [hloads, hcls] at hline
    | ok value =>
      cases value with
      | obj fields =>
        by_cases hids : ((field fields "knowledge_id").truthy &&
            (field fields "entity_id").truthy) = true
        · simp only [hloads, hids, if_true, Option.some.injEq] at hline
          exact hline ▸ host.distinct _ _ hloads
        · simp [hloads, hids] at hline
      | _ => simp [hloads] at hline

/-- A compaction survives a file exactly when each line is blank, no JSON text or an object, the
ids that it collects rows by can be hashed, and what the rows say last can be compacted. -/
theorem compaction_survives_iff (host : CompactionHost) (lines : List String) :
    Survives host lines ↔ (∀ line ∈ lines, Readable host line) ∧
      Compactable host (lines.filterMap (rowOf host)) := by
  rw [← tableCompacts_iff fun _ => nodup_row, ← versionTable, ← compact_isOk]
  constructor
  · rintro ⟨index, hindex, -⟩
    exact ⟨index, hindex⟩
  · rintro ⟨index, hindex⟩
    have hread := (compact_isOk.mp ⟨index, hindex⟩).1
    exact ⟨index, hindex, by rw [compact_filter hread, hindex]⟩

/-- A decoder that reads an empty list, and no other text. -/
def listHost : CompactionHost where
  loads text := if text = "[]" then .ok (.arr []) else .error ("JSONDecodeError", "")
  repr _ := ""
  upper := id
  lower := id
  ge _ _ := .error "TypeError"
  sortNumbers rows := rows.map Prod.snd
  distinct text row h := by
    by_cases htext : text = "[]" <;> simp [htext] at h
  ge_null _ _ _ := ⟨"TypeError", rfl⟩

/-- A line with a list stops the compaction. -/
theorem list_line_stops : ¬ Survives listHost ["[]"] := by
  have hstops : compactRegistryIndex listHost (some ["[]"]) = .error "AttributeError" := rfl
  rintro ⟨index, hindex, -⟩
  rw [hstops] at hindex
  cases hindex

end Survival

end AgenticDynamics.Knowledge.DamagedLog
