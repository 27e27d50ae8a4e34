import AgenticDynamics.Knowledge.RegistryLog

/-!
# Compaction of a damaged file

The registry file is read as text, and a row of it is any JSON object with a true `knowledge_id`
and a true `entity_id`; its other fields may hold anything. What a compaction needs of the lines,
and of the rows that it merges, to return.
-/

namespace AgenticDynamics.Knowledge.DamagedLog

open Python StableSort

/-! ### Values as keys -/

/-- What a hashable value is as a key of a dictionary; numbers of all types are one kind. The
decoder has one object for NaN, so it is found again. -/
inductive Key
  | null
  | number (x : PyFloat)
  | text (s : String)
deriving DecidableEq

/-- The key of a value; none stands for the `TypeError` of a value that cannot be hashed. -/
def keyOf : Json → Option Key
  | .null    => some .null
  | .bool b  => some (.number (.finite (if b then 1 else 0)))
  | .int n   => some (.number (.finite n))
  | .float x => some (.number x)
  | .str s   => some (.text s)
  | .arr _   => none
  | .obj _   => none

def Key.text? : Key → Option String
  | .text s => some s
  | _       => none

def Key.number? : Key → Option PyFloat
  | .number x => some x
  | _         => none

/-- A dictionary with any keys, in insertion order. -/
abbrev Table (α : Type) := List (Key × α)

namespace Table

variable {α : Type}

/-- `d.get(key)`. -/
def get? (key : Key) (t : Table α) : Option α := (t.find? fun kv => kv.1 = key).map Prod.snd

/-- `d[key] = value`: an existing key keeps its place. -/
def set (key : Key) (value : α) (t : Table α) : Table α :=
  if (t.get? key).isSome then t.map fun kv => if kv.1 = key then (key, value) else kv
  else t ++ [(key, value)]

end Table

/-! ### Lines -/

/-- `row.get(name)`, and `row[name]` where the name is there. -/
def field (row : Dict Json) (name : String) : Json := (row.get? name).getD .null

def isNull : Json → Bool
  | .null => true
  | _     => false

structure Version where
  kid : Key
  row : Dict Json
  lifecycle : Lifecycle
  validTo : Json

structure ListedVersion where
  knowledgeId : Json
  lifecycle : Lifecycle
  validTo : Json
  observedAt : Json
  indexedAt : Json
  reason : Json

structure CompactedRow where
  entityId : Key
  knowledgeId : Json
  sourceType : Json
  logicalLocator : Json
  sourceUri : Json
  observedAt : Json
  indexedAt : Json
  supersedes : Json
  causes : Json
  reason : Json
  lifecycle : Lifecycle
  validTo : Json
  versions : List ListedVersion

/-- The built-ins besides: `a >= b` on two values, the error being the class of the exception, and
the order that `sorted` gives to rows whose keys are numbers, among which NaN has no place of its
own. A decoded object has each key once, and `None` is not ordered. -/
structure CompactionHost extends Runtime where
  ge : Json → Json → Except String Bool
  sortNumbers : List (PyFloat × CompactedRow) → List CompactedRow
  distinct : ∀ text row, loads text = .ok (.obj row) → (row.map Prod.fst).Nodup
  ge_null : ∀ a b, isNull a ∨ isNull b → ∃ cls, ge a b = .error cls

section Compaction

variable (host : CompactionHost)

/-- One line of the file: none where it is skipped. -/
def readLine (line : String) : Except String (Option (Dict Json)) :=
  let text := strip line
  if text = "" then .ok none
  else
    match host.loads text with
    | .error (cls, _) => if cls = "JSONDecodeError" then .ok none else .error cls
    | .ok (.obj row)  =>
      if (field row "knowledge_id").truthy && (field row "entity_id").truthy then .ok (some row)
      else .ok none
    | .ok _           => .error "AttributeError"

/-- `str(row.get("indexed_at") or "")`. -/
def indexedText (row : Dict Json) : String :=
  (Json.orElse (row.get? "indexed_at") (.str "")).text host.toRuntime

/-- `{**old, **{k: v for k, v in new.items() if v is not None}}`. -/
def merge (old new : Dict Json) : Dict Json :=
  new.foldl (fun d kv => if isNull kv.2 then d else Dict.set kv.1 kv.2 d) old

/-- Fold a row into the one of its version; a row that is older is dropped. -/
def fold (table : Table (Dict Json)) (kid : Key) (row : Dict Json) : Table (Dict Json) :=
  match table.get? kid with
  | none          => table.set kid row
  | some existing =>
    if indexedText host existing ≤ indexedText host row then table.set kid (merge existing row)
    else table

def collect (table : Table (Dict Json)) (row : Dict Json) :
    Except String (Table (Dict Json)) :=
  match keyOf (field row "knowledge_id") with
  | none     => .error "TypeError"
  | some kid => .ok (fold host table kid row)

def readInto (table : Table (Dict Json)) (line : String) : Except String (Table (Dict Json)) := do
  match ← readLine host line with
  | none     => return table
  | some row => collect host table row

def byKnowledgeId (lines : List String) : Except String (Table (Dict Json)) :=
  lines.foldlM (readInto host) []

/-- `{row["supersedes"]: row for row in rows if row.get("supersedes")}`. -/
def successors (rows : List (Dict Json)) : Except String (Table (Dict Json)) :=
  rows.foldlM (fun acc row =>
    if (field row "supersedes").truthy then
      match keyOf (field row "supersedes") with
      | none   => .error "TypeError"
      | some k => .ok (acc.set k row)
    else .ok acc) []

/-- `value == "tombstoned"`. -/
def isTombstone : Json → Bool
  | .str s => s = "tombstoned"
  | _      => false

/-- The state of the row that stands under a `knowledge_id`. -/
def deriveLifecycle (kid : Key) (row : Dict Json) (successorByPredecessor : Table (Dict Json)) :
    Lifecycle × Json :=
  match successorByPredecessor.get? kid with
  | some successor =>
    (.superseded, Json.orElse (successor.get? "observed_at") (field successor "indexed_at"))
  | none =>
    if isTombstone (field row "lifecycle_state") then
      (.tombstoned, Json.orElse (row.get? "valid_to") (field row "indexed_at"))
    else (.current, field row "valid_to")

def derivedVersions (table successorByPredecessor : Table (Dict Json)) : List Version :=
  table.map fun kv =>
    let state := deriveLifecycle kv.1 kv.2 successorByPredecessor
    ⟨kv.1, kv.2, state.1, state.2⟩

def byEntity (versions : List Version) : Except String (Table (List Version)) :=
  versions.foldlM (fun groups v =>
    match keyOf (field v.row "entity_id") with
    | none   => .error "TypeError"
    | some e => .ok (groups.set e ((groups.get? e).getD [] ++ [v]))) []

/-- `tombstoned[-1]["indexed_at"] >= live[-1]["indexed_at"]`. -/
def notBefore (tombstone live : Dict Json) : Except String Bool :=
  match tombstone.get? "indexed_at", live.get? "indexed_at" with
  | some t, some l => host.ge t l
  | _, _           => .error "KeyError"

def headOf (rows : List Version) : Except String Version :=
  let tombstoned := (rows.filter fun r => r.lifecycle = .tombstoned).getLast?
  let live := (rows.filter fun r => r.lifecycle = .current).getLast?
  match tombstoned, live with
  | some t, none   => .ok t
  | some t, some l => (notBefore host t.row l.row).map fun b => if b then t else l
  | none, some l   => .ok l
  | none, none     => rows.getLast?.elim (.error "IndexError") .ok

/-- A tombstone closes the open versions of its entity. -/
def closeOpen (head : Version) (rows : List Version) : List Version :=
  if head.lifecycle = .tombstoned then
    rows.map fun r =>
      if r.kid ≠ head.kid ∧ r.lifecycle = .current then
        { r with
          lifecycle := .superseded
          validTo := Json.orElse (head.row.get? "observed_at") (field head.row "indexed_at") }
      else r
  else rows

def Version.listed (v : Version) : ListedVersion where
  knowledgeId := field v.row "knowledge_id"
  lifecycle := v.lifecycle
  validTo := v.validTo
  observedAt := field v.row "observed_at"
  indexedAt := field v.row "indexed_at"
  reason := field v.row "reason"

def compactEntity (entityId : Key) (versions : List Version) : Except String CompactedRow := do
  let rows := sortBy (fun v => indexedText host v.row) versions
  let head ← headOf host rows
  return {
    entityId
    knowledgeId := field head.row "knowledge_id"
    sourceType := field head.row "source_type"
    logicalLocator := field head.row "logical_locator"
    sourceUri := field head.row "source_uri"
    observedAt := field head.row "observed_at"
    indexedAt := field head.row "indexed_at"
    supersedes := field head.row "supersedes"
    causes := field head.row "causes"
    reason := field head.row "reason"
    lifecycle := head.lifecycle
    validTo := head.validTo
    versions := (closeOpen head rows).map Version.listed }

/-- `sorted(compacted, key=lambda r: r["entity_id"])`: texts and numbers cannot be compared. -/
def sortedRows (rows : List CompactedRow) : Except String (List CompactedRow) :=
  if rows.length ≤ 1 then .ok rows
  else if rows.all fun r => r.entityId.text?.isSome then
    .ok (sortBy (fun r => r.entityId.text?.getD "") rows)
  else if rows.all fun r => r.entityId.number?.isSome then
    .ok (host.sortNumbers (rows.map fun r => (r.entityId.number?.getD .nan, r)))
  else .error "TypeError"

/-- The compacted index of a file; none stands for a file that does not exist. -/
def compactRegistryIndex : Option (List String) → Except String (List CompactedRow)
  | none       => .ok []
  | some lines => do
    let table ← byKnowledgeId host lines
    let successorByPredecessor ← successors (table.map Prod.snd)
    let groups ← byEntity (derivedVersions table successorByPredecessor)
    let compacted ← groups.mapM fun kv => compactEntity host kv.1 kv.2
    sortedRows host compacted

end Compaction

/-! ### Tables -/

namespace Table

variable {α : Type} {t : Table α} {k k' : Key} {v : α}

lemma get?_isSome : (t.get? k).isSome ↔ k ∈ t.map Prod.fst := by
  rw [get?, Option.isSome_map, List.find?_isSome]
  simp

lemma get?_overwrite (t : Table α) (k k' : Key) (v : α) :
    get? k' (t.map fun kv => if kv.1 = k then (k, v) else kv) =
      if k = k' then (t.get? k').map fun _ => v else t.get? k' := by
  induction t with
  | nil => by_cases hk : k = k' <;> simp [get?, hk]
  | cons kv t ih =>
    rw [List.map_cons]
    by_cases hkv : kv.1 = k'
    · by_cases hk : k = k'
      · subst hk
        simp [get?, hkv]
      · have hne : ¬ k' = k := fun h => hk h.symm
        simp [get?, hkv, hne, hk]
    · by_cases hk : kv.1 = k
      · have hne : ¬ k = k' := fun h => hkv (hk.trans h)
        simpa [get?, hk, hne] using ih
      · simpa [get?, hk, hkv] using ih

lemma get?_set : (t.set k v).get? k' = if k = k' then some v else t.get? k' := by
  rw [set]
  split
  · rename_i hsome
    rw [get?_overwrite]
    by_cases hk : k = k'
    · subst hk
      obtain ⟨w, hw⟩ := Option.isSome_iff_exists.mp hsome
      simp [hw]
    · simp [hk]
  · rename_i hnone
    rw [get?, List.find?_append, Option.map_or]
    by_cases hk : k = k'
    · have hget : (t.find? fun kv => kv.1 = k').map Prod.snd = none := by
        rw [← hk]
        exact Option.not_isSome_iff_eq_none.mp hnone
      simp [hk, hget]
    · simp [hk, get?]

lemma keys_set : (t.set k v).map Prod.fst =
    if k ∈ t.map Prod.fst then t.map Prod.fst else t.map Prod.fst ++ [k] := by
  rw [set]
  by_cases hk : k ∈ t.map Prod.fst
  · rw [if_pos (get?_isSome.mpr hk), if_pos hk, List.map_map]
    refine List.map_congr_left fun kv _ => ?_
    by_cases hkv : kv.1 = k <;> simp [hkv]
  · rw [if_neg fun h => hk (get?_isSome.mp h), if_neg hk, List.map_append]
    rfl

lemma nodup_set (h : (t.map Prod.fst).Nodup) : ((t.set k v).map Prod.fst).Nodup := by
  rw [keys_set]
  split
  · exact h
  · rename_i hnew
    refine List.nodup_append.mpr ⟨h, by simp, fun a ha b hb => ?_⟩
    obtain rfl : b = k := by simpa using hb
    rintro rfl
    exact hnew ha

lemma mem_iff (h : (t.map Prod.fst).Nodup) : (k, v) ∈ t ↔ t.get? k = some v := by
  induction t with
  | nil => simp [get?]
  | cons kv t ih =>
    obtain ⟨hnew, h⟩ := List.nodup_cons.mp h
    by_cases hk : kv.1 = k
    · subst hk
      have hnot : (kv.1, v) ∉ t := fun hmem => hnew (List.mem_map.mpr ⟨_, hmem, rfl⟩)
      simp [get?, hnot, Prod.ext_iff, eq_comm]
    · have hne : (k, v) ≠ kv := fun heq => hk (by rw [← heq])
      rw [List.mem_cons, ih h]
      simp [get?, hk, hne]

end Table

/-! ### What the lines need -/

lemma keyOf_isSome {value : Json} : (keyOf value).isSome ↔ value.hashable = true := by
  cases value <;> simp [keyOf, Json.hashable]

section Lines

variable (host : CompactionHost)

/-- The line is blank, or no JSON text, or an object; and an object that can be attributed has a
`knowledge_id` that can be hashed. -/
inductive Readable (line : String) : Prop
  | blank (hblank : strip line = "")
  | damaged (message : String)
      (hloads : host.loads (strip line) = .error ("JSONDecodeError", message))
  | object (row : Dict Json) (hloads : host.loads (strip line) = .ok (.obj row))
      (hkid : (field row "knowledge_id").truthy → (field row "entity_id").truthy →
        (field row "knowledge_id").hashable)

def rowOf (line : String) : Option (Dict Json) :=
  match readLine host line with
  | .ok row  => row
  | .error _ => none

def foldRow (table : Table (Dict Json)) (row : Dict Json) : Table (Dict Json) :=
  (keyOf (field row "knowledge_id")).elim table fun kid => fold host table kid row

/-- The rows of the versions that the lines have. -/
def versionTable (lines : List String) : Table (Dict Json) :=
  (lines.filterMap (rowOf host)).foldl (foldRow host) []

variable {host} {line : String} {lines : List String}

lemma readable_iff : Readable host line ↔
    ∃ r, readLine host line = .ok r ∧ ∀ row ∈ r, (keyOf (field row "knowledge_id")).isSome := by
  simp only [keyOf_isSome]
  constructor
  · rintro (hblank | ⟨message, hloads⟩ | ⟨row, hloads, hkid⟩)
    · exact ⟨none, by simp [readLine, hblank], by simp⟩
    · by_cases hblank : strip line = ""
      · exact ⟨none, by simp [readLine, hblank], by simp⟩
      · exact ⟨none, by simp [readLine, hblank, hloads], by simp⟩
    · by_cases hblank : strip line = ""
      · exact ⟨none, by simp [readLine, hblank], by simp⟩
      by_cases hids : (field row "knowledge_id").truthy = true ∧
          (field row "entity_id").truthy = true
      · refine ⟨some row, by simp [readLine, hblank, hloads, hids], ?_⟩
        simpa using hkid hids.1 hids.2
      · refine ⟨none, ?_, by simp⟩
        simp only [readLine, hblank, if_false, hloads]
        rw [if_neg (by simpa using hids)]
  · rintro ⟨r, hread, hkid⟩
    by_cases hblank : strip line = ""
    · exact .blank hblank
    simp only [readLine, hblank, if_false] at hread
    cases hloads : host.loads (strip line) with
    | error fault =>
      obtain ⟨cls, message⟩ := fault
      rw [hloads] at hread
      by_cases hcls : cls = "JSONDecodeError"
      · exact .damaged message (hcls ▸ hloads)
      · simp [hcls] at hread
    | ok value =>
      rw [hloads] at hread
      cases value with
      | obj row =>
        refine .object row hloads fun hk he => hkid row ?_
        simp only [hk, he, Bool.and_self, if_true, Except.ok.injEq] at hread
        simp [← hread]
      | _ => cases hread

lemma readInto_eq_ok {table table' : Table (Dict Json)} :
    readInto host table line = .ok table' ↔
      Readable host line ∧ table' = (rowOf host line).elim table (foldRow host table) := by
  rw [readable_iff, readInto, bind_eq_ok, rowOf]
  cases hread : readLine host line with
  | error cls => simp
  | ok r =>
    cases r with
    | none => simpa [pure, Except.pure] using eq_comm
    | some row =>
      simp only [Except.ok.injEq, exists_eq_left', Option.mem_some_iff, forall_eq', collect,
        foldRow, Option.elim_some]
      cases hkid : keyOf (field row "knowledge_id") with
      | none => simp
      | some kid => simpa using eq_comm

lemma foldl_rowOf {table : Table (Dict Json)} :
    lines.foldl (fun t line => (rowOf host line).elim t (foldRow host t)) table =
      (lines.filterMap (rowOf host)).foldl (foldRow host) table := by
  induction lines generalizing table with
  | nil => rfl
  | cons line lines ih =>
    rw [List.foldl_cons, ih]
    cases hrow : rowOf host line <;> simp [hrow]

lemma byKnowledgeId_eq_ok {table : Table (Dict Json)} :
    byKnowledgeId host lines = .ok table ↔
      (∀ line ∈ lines, Readable host line) ∧ table = versionTable host lines := by
  have hstep : ∀ (t : Table (Dict Json)) (line : String) (t' : Table (Dict Json)),
      readInto host t line = .ok t' ↔
        Readable host line ∧ t' = (rowOf host line).elim t (foldRow host t) :=
    fun _ _ _ => readInto_eq_ok
  have hloop := @foldlM_eq_ok String String (Table (Dict Json)) (readInto host)
    (fun t line => (rowOf host line).elim t (foldRow host t)) (Readable host) hstep lines [] table
  rw [byKnowledgeId, hloop, foldl_rowOf, versionTable]

end Lines

/-! ### What the rows need -/

section Rows

variable {host : CompactionHost} {table : Table (Dict Json)}

/-- Add the row under the version that it names. -/
def addSuccessor (acc : Table (Dict Json)) (row : Dict Json) : Table (Dict Json) :=
  if (field row "supersedes").truthy then
    (keyOf (field row "supersedes")).elim acc fun k => acc.set k row
  else acc

lemma successors_eq_ok {rows : List (Dict Json)} {acc : Table (Dict Json)} :
    successors rows = .ok acc ↔
      (∀ row ∈ rows, (field row "supersedes").truthy → (field row "supersedes").hashable) ∧
        acc = rows.foldl addSuccessor [] := by
  rw [successors]
  refine foldlM_eq_ok fun acc row acc' => ?_
  rw [addSuccessor, ← keyOf_isSome]
  by_cases hnames : (field row "supersedes").truthy = true
  · simp only [hnames, if_true]
    cases keyOf (field row "supersedes") with
    | none => simp
    | some k => simpa using eq_comm
  · simpa [hnames] using eq_comm

def Version.entity? (v : Version) : Option Key := keyOf (field v.row "entity_id")

def addToEntity (groups : Table (List Version)) (v : Version) : Table (List Version) :=
  v.entity?.elim groups fun e => groups.set e ((groups.get? e).getD [] ++ [v])

lemma byEntity_eq_ok {versions : List Version} {groups : Table (List Version)} :
    byEntity versions = .ok groups ↔
      (∀ v ∈ versions, (field v.row "entity_id").hashable) ∧
        groups = versions.foldl addToEntity [] := by
  rw [byEntity]
  refine foldlM_eq_ok fun groups v groups' => ?_
  rw [addToEntity, Version.entity?, ← keyOf_isSome]
  cases keyOf (field v.row "entity_id") with
  | none => simp
  | some e => simpa using eq_comm

/-- The versions of an entity, in their order. -/
def ofEntity (versions : List Version) (e : Key) : List Version :=
  versions.filter fun v => v.entity? = some e

lemma get?_addToEntity (versions : List Version) (e : Key) :
    (versions.foldl addToEntity []).get? e =
      if ofEntity versions e = [] then none else some (ofEntity versions e) := by
  induction versions using List.reverseRecOn with
  | nil => rfl
  | append_singleton versions v ih =>
    rw [List.foldl_append, List.foldl_cons, List.foldl_nil, addToEntity, ofEntity,
      List.filter_append]
    cases hentity : v.entity? with
    | none => simpa [hentity, ofEntity] using ih
    | some e' =>
      rw [Option.elim_some, Table.get?_set]
      by_cases he : e' = e
      · subst he
        have hgroup : ((versions.foldl addToEntity []).get? e').getD [] = ofEntity versions e' := by
          rw [ih]
          by_cases hnil : ofEntity versions e' = []
          · rw [if_pos hnil, hnil]
            rfl
          · rw [if_neg hnil]
            rfl
        rw [hgroup]
        simp [hentity, ofEntity]
      · simpa [hentity, he, ofEntity] using ih

lemma nodup_addToEntity (versions : List Version) :
    ((versions.foldl addToEntity []).map Prod.fst).Nodup := by
  induction versions using List.reverseRecOn with
  | nil => simp
  | append_singleton versions v ih =>
    rw [List.foldl_append, List.foldl_cons, List.foldl_nil, addToEntity]
    cases v.entity? with
    | none => exact ih
    | some e => exact Table.nodup_set ih

lemma mem_groups {versions : List Version} {e : Key} {group : List Version} :
    (e, group) ∈ versions.foldl addToEntity [] ↔ group = ofEntity versions e ∧ group ≠ [] := by
  rw [Table.mem_iff (nodup_addToEntity versions), get?_addToEntity]
  by_cases hnil : ofEntity versions e = []
  · simp [hnil]
  · simp only [if_neg hnil, Option.some.injEq]
    constructor
    · rintro rfl
      exact ⟨rfl, hnil⟩
    · exact fun h => h.1.symm

/-! ### Heads and ids -/

/-- The two rows have an `indexed_at`, and these can be compared. -/
def Comparable (host : CompactionHost) (a b : Dict Json) : Prop :=
  ∃ t l, a.get? "indexed_at" = some t ∧ b.get? "indexed_at" = some l ∧
    ∃ answer, host.ge t l = .ok answer

lemma notBefore_isOk {a b : Dict Json} :
    (∃ answer, notBefore host a b = .ok answer) ↔ Comparable host a b := by
  rw [notBefore, Comparable]
  cases a.get? "indexed_at" with
  | none => simp
  | some t => cases b.get? "indexed_at" <;> simp

lemma headOf_isOk {rows : List Version} : (∃ head, headOf host rows = .ok head) ↔
    rows ≠ [] ∧ ∀ t l, (rows.filter fun r => r.lifecycle = .tombstoned).getLast? = some t →
      (rows.filter fun r => r.lifecycle = .current).getLast? = some l →
        Comparable host t.row l.row := by
  have hne : ∀ {p : Version → Bool} {v : Version}, (rows.filter p).getLast? = some v →
      rows ≠ [] := fun hv => List.ne_nil_of_mem
        (List.mem_of_mem_filter (List.mem_of_getLast? hv))
  simp only [headOf]
  cases ht : (rows.filter fun r => r.lifecycle = .tombstoned).getLast? with
  | none =>
    cases hl : (rows.filter fun r => r.lifecycle = .current).getLast? with
    | none =>
      cases hlast : rows.getLast? with
      | none => simp [List.getLast?_eq_none_iff.mp hlast]
      | some v => simp [List.ne_nil_of_mem (List.mem_of_getLast? hlast)]
    | some l => simp [hne hl]
  | some t =>
    cases hl : (rows.filter fun r => r.lifecycle = .current).getLast? with
    | none => simp [hne ht]
    | some l =>
      simp only [hne ht, ne_eq, not_false_eq_true, true_and, Option.some.injEq,
        ← notBefore_isOk]
      cases hanswer : notBefore host t.row l.row <;> simp [Except.map, hanswer]

/-- Wherever an entity has deleted and open versions, the latest of each can be compared. -/
def HeadsComparable (host : CompactionHost) (versions : List Version) : Prop :=
  ∀ e t l,
    Latest (fun v => indexedText host v.row)
      ((ofEntity versions e).filter fun v => v.lifecycle = .tombstoned) t →
    Latest (fun v => indexedText host v.row)
      ((ofEntity versions e).filter fun v => v.lifecycle = .current) l →
    Comparable host t.row l.row

lemma compactEntity_isOk {e e' : Key} {versions : List Version} (hnodup : versions.Nodup)
    (hne : ofEntity versions e ≠ []) :
    (∃ row, compactEntity host e' (ofEntity versions e) = .ok row) ↔ ∀ t l,
      Latest (fun v => indexedText host v.row)
        ((ofEntity versions e).filter fun v => v.lifecycle = .tombstoned) t →
      Latest (fun v => indexedText host v.row)
        ((ofEntity versions e).filter fun v => v.lifecycle = .current) l →
      Comparable host t.row l.row := by
  have hsorted : sortBy (fun v => indexedText host v.row) (ofEntity versions e) ≠ [] := by
    intro hnil
    have hperm := sortBy_perm (fun v : Version => indexedText host v.row) (ofEntity versions e)
    rw [hnil] at hperm
    exact hne hperm.symm.eq_nil
  have hhead : (∃ row, compactEntity host e' (ofEntity versions e) = .ok row) ↔
      ∃ head, headOf host (sortBy (fun v => indexedText host v.row) (ofEntity versions e)) =
        .ok head := by
    simp only [compactEntity, bind_eq_ok]
    constructor
    · rintro ⟨row, head, hhead, -⟩
      exact ⟨head, hhead⟩
    · rintro ⟨head, hhead⟩
      exact ⟨_, head, hhead, rfl⟩
  have hkept : (ofEntity versions e).Nodup := hnodup.filter _
  rw [hhead, headOf_isOk]
  simp only [hsorted, ne_eq, not_false_eq_true, true_and, getLast?_filter_sortBy hkept]

/-- All ids of entities are one, or texts, or numbers. -/
def Sortable (versions : List Version) : Prop :=
  (∀ v ∈ versions, ∀ w ∈ versions, v.entity? = w.entity?) ∨
    (∀ v ∈ versions, ∃ s, v.entity? = some (.text s)) ∨
    ∀ v ∈ versions, ∃ x, v.entity? = some (.number x)

lemma sortedRows_isOk {rows : List CompactedRow} : (∃ index, sortedRows host rows = .ok index) ↔
    rows.length ≤ 1 ∨ (∀ k ∈ rows.map CompactedRow.entityId, ∃ s, k = .text s) ∨
      ∀ k ∈ rows.map CompactedRow.entityId, ∃ x, k = .number x := by
  have htext : (rows.all fun r => r.entityId.text?.isSome) = true ↔
      ∀ k ∈ rows.map CompactedRow.entityId, ∃ s, k = .text s := by
    rw [List.all_eq_true, List.forall_mem_map]
    refine forall₂_congr fun r _ => ?_
    cases r.entityId <;> simp [Key.text?]
  have hnumber : (rows.all fun r => r.entityId.number?.isSome) = true ↔
      ∀ k ∈ rows.map CompactedRow.entityId, ∃ x, k = .number x := by
    rw [List.all_eq_true, List.forall_mem_map]
    refine forall₂_congr fun r _ => ?_
    cases r.entityId <;> simp [Key.number?]
  rw [sortedRows, ← htext, ← hnumber]
  by_cases hone : rows.length ≤ 1
  · simp [hone]
  · cases rows.all fun r => r.entityId.text?.isSome <;>
      cases rows.all fun r => r.entityId.number?.isSome <;> simp [hone]

lemma mem_groups_keys {versions : List Version} {e : Key} :
    e ∈ (versions.foldl addToEntity []).map Prod.fst ↔ ∃ v ∈ versions, v.entity? = some e := by
  rw [← Table.get?_isSome, get?_addToEntity]
  by_cases hnil : ofEntity versions e = []
  · rw [if_pos hnil]
    have hnone := List.filter_eq_nil_iff.mp hnil
    simpa using hnone
  · rw [if_neg hnil]
    obtain ⟨v, hv⟩ := List.exists_mem_of_ne_nil _ hnil
    obtain ⟨hv, he⟩ := List.mem_filter.mp hv
    simp only [Option.isSome_some, true_iff]
    exact ⟨v, hv, of_decide_eq_true he⟩

lemma sortable_iff {versions : List Version} (hentity : ∀ v ∈ versions, v.entity?.isSome) :
    (((versions.foldl addToEntity []).map Prod.fst).length ≤ 1 ∨
      (∀ k ∈ (versions.foldl addToEntity []).map Prod.fst, ∃ s, k = .text s) ∨
        ∀ k ∈ (versions.foldl addToEntity []).map Prod.fst, ∃ x, k = .number x) ↔
      Sortable versions := by
  have hkind : ∀ P : Key → Prop, (∀ k ∈ (versions.foldl addToEntity []).map Prod.fst, P k) ↔
      ∀ v ∈ versions, ∃ k, v.entity? = some k ∧ P k := by
    intro P
    constructor
    · intro h v hv
      obtain ⟨k, hk⟩ := Option.isSome_iff_exists.mp (hentity v hv)
      exact ⟨k, hk, h k (mem_groups_keys.mpr ⟨v, hv, hk⟩)⟩
    · intro h k hk
      obtain ⟨v, hv, he⟩ := mem_groups_keys.mp hk
      obtain ⟨k', hk', hp⟩ := h v hv
      rw [he, Option.some.injEq] at hk'
      exact hk' ▸ hp
  have hone : ((versions.foldl addToEntity []).map Prod.fst).length ≤ 1 ↔
      ∀ v ∈ versions, ∀ w ∈ versions, v.entity? = w.entity? := by
    have hnodup := nodup_addToEntity versions
    constructor
    · intro hlength v hv w hw
      obtain ⟨k, hk⟩ := Option.isSome_iff_exists.mp (hentity v hv)
      obtain ⟨k', hk'⟩ := Option.isSome_iff_exists.mp (hentity w hw)
      have hmem := mem_groups_keys.mpr ⟨v, hv, hk⟩
      have hmem' := mem_groups_keys.mpr ⟨w, hw, hk'⟩
      rw [hk, hk']
      match (versions.foldl addToEntity []).map Prod.fst, hlength, hmem, hmem' with
      | [a], _, hmem, hmem' => rw [List.mem_singleton.mp hmem, List.mem_singleton.mp hmem']
    · intro hsame
      have hequal : ∀ k ∈ (versions.foldl addToEntity []).map Prod.fst,
          ∀ k' ∈ (versions.foldl addToEntity []).map Prod.fst, k = k' := by
        intro k hk k' hk'
        obtain ⟨v, hv, he⟩ := mem_groups_keys.mp hk
        obtain ⟨w, hw, he'⟩ := mem_groups_keys.mp hk'
        exact Option.some.inj (he.symm.trans ((hsame v hv w hw).trans he'))
      generalize (versions.foldl addToEntity []).map Prod.fst = keys at hnodup hequal
      cases keys with
      | nil => simp
      | cons a keys =>
        cases keys with
        | nil => simp
        | cons b keys =>
          have hab := hequal a (by simp) b (by simp)
          simp [hab] at hnodup
  rw [Sortable, hone, hkind, hkind]
  refine or_congr Iff.rfl (or_congr ?_ ?_)
  · refine forall₂_congr fun v _ => ⟨?_, ?_⟩
    · rintro ⟨k, hk, s, rfl⟩
      exact ⟨s, hk⟩
    · rintro ⟨s, hk⟩
      exact ⟨_, hk, s, rfl⟩
  · refine forall₂_congr fun v _ => ⟨?_, ?_⟩
    · rintro ⟨k, hk, x, rfl⟩
      exact ⟨x, hk⟩
    · rintro ⟨x, hk⟩
      exact ⟨_, hk, x, rfl⟩

end Rows

/-! ### When a compaction survives -/

section Survival

variable {host : CompactionHost} {lines : List String}

/-- The versions of the table with their states. -/
def versionsOf (table : Table (Dict Json)) : List Version :=
  derivedVersions table ((table.map Prod.snd).foldl addSuccessor [])

/-- No pointer of a version and no id of an entity is a list or an object, the heads of an entity
can be compared and the ids of the entities can be sorted. -/
structure TableCompacts (host : CompactionHost) (table : Table (Dict Json)) : Prop where
  pointers : ∀ kv ∈ table, (field kv.2 "supersedes").truthy → (field kv.2 "supersedes").hashable
  entities : ∀ kv ∈ table, (field kv.2 "entity_id").hashable
  heads : HeadsComparable host (versionsOf table)
  ids : Sortable (versionsOf table)

lemma nodup_foldRow (rows : List (Dict Json)) :
    ((rows.foldl (foldRow host) []).map Prod.fst).Nodup := by
  induction rows using List.reverseRecOn with
  | nil => simp
  | append_singleton rows row ih =>
    rw [List.foldl_append, List.foldl_cons, List.foldl_nil, foldRow]
    cases keyOf (field row "knowledge_id") with
    | none => exact ih
    | some kid =>
      rw [Option.elim_some, fold]
      split
      · exact Table.nodup_set ih
      · split
        · exact Table.nodup_set ih
        · exact ih

lemma nodup_versionsOf {table : Table (Dict Json)} (h : (table.map Prod.fst).Nodup) :
    (versionsOf table).Nodup := by
  have hkids : (versionsOf table).map Version.kid = table.map Prod.fst := by
    rw [versionsOf, derivedVersions, List.map_map]
    rfl
  exact (hkids ▸ h : ((versionsOf table).map Version.kid).Nodup).of_map

lemma forall_versionsOf {table : Table (Dict Json)} {P : Dict Json → Prop} :
    (∀ v ∈ versionsOf table, P v.row) ↔ ∀ kv ∈ table, P kv.2 := by
  rw [versionsOf, derivedVersions, List.forall_mem_map]

lemma compacted_isOk {versions : List Version} (hnodup : versions.Nodup)
    (hentity : ∀ v ∈ versions, v.entity?.isSome) :
    (∃ index compacted, (versions.foldl addToEntity []).mapM
        (fun kv => compactEntity host kv.1 kv.2) = .ok compacted ∧
      sortedRows host compacted = .ok index) ↔
      HeadsComparable host versions ∧ Sortable versions := by
  have hheads : (∃ compacted, (versions.foldl addToEntity []).mapM
      (fun kv => compactEntity host kv.1 kv.2) = .ok compacted) ↔
        HeadsComparable host versions := by
    rw [mapM_isOk]
    constructor
    · intro h e t l ht hl
      have hne : ofEntity versions e ≠ [] :=
        List.ne_nil_of_mem (List.mem_of_mem_filter ht.mem)
      obtain ⟨row, hrow⟩ := h (e, ofEntity versions e) (mem_groups.mpr ⟨rfl, hne⟩)
      exact (compactEntity_isOk hnodup hne).mp ⟨row, hrow⟩ t l ht hl
    · rintro h ⟨e, group⟩ hgroup
      obtain ⟨rfl, hne⟩ := mem_groups.mp hgroup
      exact (compactEntity_isOk hnodup hne).mpr fun t l => h e t l
  have hids : ∀ compacted, (versions.foldl addToEntity []).mapM
      (fun kv => compactEntity host kv.1 kv.2) = .ok compacted →
        ((∃ index, sortedRows host compacted = .ok index) ↔ Sortable versions) := by
    intro compacted hcompacted
    have hkeys : compacted.map CompactedRow.entityId =
        (versions.foldl addToEntity []).map Prod.fst := by
      have hrel := forall₂_of_mapM hcompacted
      clear hcompacted
      generalize versions.foldl addToEntity [] = groups at hrel
      induction hrel with
      | nil => rfl
      | @cons kv row _ _ hrow _ ih =>
        have hentityId : row.entityId = kv.1 := by
          simp only [compactEntity, bind_eq_ok, pure, Except.pure, Except.ok.injEq] at hrow
          obtain ⟨head, -, rfl⟩ := hrow
          rfl
        rw [List.map_cons, List.map_cons, hentityId, ih]
    rw [sortedRows_isOk, ← sortable_iff hentity, ← hkeys, List.length_map]
  constructor
  · rintro ⟨index, compacted, hcompacted, hindex⟩
    exact ⟨hheads.mp ⟨compacted, hcompacted⟩, (hids compacted hcompacted).mp ⟨index, hindex⟩⟩
  · rintro ⟨hcomparable, hsortable⟩
    obtain ⟨compacted, hcompacted⟩ := hheads.mpr hcomparable
    obtain ⟨index, hindex⟩ := (hids compacted hcompacted).mpr hsortable
    exact ⟨index, compacted, hcompacted, hindex⟩

lemma compact_isOk : (∃ index, compactRegistryIndex host (some lines) = .ok index) ↔
    (∀ line ∈ lines, Readable host line) ∧ TableCompacts host (versionTable host lines) := by
  have hnodup : (versionsOf (versionTable host lines)).Nodup :=
    nodup_versionsOf (nodup_foldRow (lines.filterMap (rowOf host)))
  simp only [compactRegistryIndex, bind_eq_ok, byKnowledgeId_eq_ok, successors_eq_ok,
    byEntity_eq_ok]
  constructor
  · rintro ⟨index, _, ⟨hread, rfl⟩, _, ⟨hpointers, rfl⟩, _, ⟨hentities, rfl⟩, compacted,
      hcompacted, hindex⟩
    have hentity : ∀ v ∈ versionsOf (versionTable host lines), v.entity?.isSome := fun v hv =>
      keyOf_isSome.mpr (hentities v hv)
    obtain ⟨hheads, hids⟩ := (compacted_isOk hnodup hentity).mp
      ⟨index, compacted, hcompacted, hindex⟩
    refine ⟨hread, fun kv hkv => hpointers kv.2 (List.mem_map_of_mem hkv), ?_, hheads, hids⟩
    exact forall_versionsOf (P := fun row => (field row "entity_id").hashable) |>.mp hentities
  · rintro ⟨hread, hpointers, hentities, hheads, hids⟩
    have hof : ∀ v ∈ versionsOf (versionTable host lines), (field v.row "entity_id").hashable :=
      forall_versionsOf (P := fun row => (field row "entity_id").hashable) |>.mpr hentities
    obtain ⟨index, compacted, hcompacted, hindex⟩ :=
      (compacted_isOk hnodup fun v hv => keyOf_isSome.mpr (hof v hv)).mpr ⟨hheads, hids⟩
    exact ⟨index, _, ⟨hread, rfl⟩, _, ⟨List.forall_mem_map.mpr hpointers, rfl⟩, _, ⟨hof, rfl⟩,
      compacted, hcompacted, hindex⟩

end Survival

end AgenticDynamics.Knowledge.DamagedLog
