import AgenticDynamics.Knowledge.RecordRoundTrip
import AgenticDynamics.Knowledge.CloseOrder

/-!
# Close, then open

The artifact directory holds the records of the closes, and each of them is read back from its
artifact. As long as the sessions are closed in order, opening a session finds its last close.
-/

namespace AgenticDynamics.Knowledge.SessionSpine

open Python StableSort
open Beliefs (BeliefError textOf isText aioAclScope repositoryIdDefault)

/-! ### The text of a record -/

def Separable (b : SessionBody) : Prop :=
  ¬ separator.toList <:+: (prose b.slug b.sessionDate b).toList ++ [' ']

lemma separator_shift {p : List Char} (hp : p ≠ [])
    (h : separator.toList <+: p ++ separator.toList) :
    separator.toList <+: p ++ [' '] := by
  by_cases hlength : 9 ≤ p.length
  · have hspace : p ++ [' '] <+: p ++ separator.toList :=
      (List.prefix_append_right_inj p).mpr ⟨separator.toList.tail, rfl⟩
    refine List.prefix_of_prefix_length_le h hspace ?_
    have hten : separator.toList.length = 10 := by decide
    rw [hten, List.length_append, List.length_singleton]
    omega
  · have hpart : p <+: separator.toList := by
      refine List.prefix_of_prefix_length_le (List.prefix_append p separator.toList) h ?_
      have hten : separator.toList.length = 10 := by decide
      omega
    have hnone : ∀ n ∈ List.range 9, n ≠ 0 →
        ¬ separator.toList <+: separator.toList.take n ++ separator.toList := by decide
    rw [List.prefix_iff_eq_take.mp hpart] at h
    have hpos : p.length ≠ 0 := by simpa using hp
    exact absurd h (hnone p.length (List.mem_range.mpr (by omega)) hpos)

lemma afterSeparator_append {p : List Char} (h : ¬ separator.toList <:+: p ++ [' '])
    (rest : List Char) : afterSeparator (p ++ (separator.toList ++ rest)) = some rest := by
  induction p with
  | nil =>
    have hprefix : separator.toList.isPrefixOf (separator.toList ++ rest) = true :=
      List.isPrefixOf_iff_prefix.mpr (List.prefix_append _ _)
    obtain ⟨c, cs, hcs⟩ : ∃ c cs, separator.toList = c :: cs := ⟨_, _, rfl⟩
    rw [List.nil_append]
    rw [hcs, List.cons_append] at hprefix ⊢
    rw [afterSeparator, hcs, if_pos hprefix]
    simp
  | cons c p ih =>
    have hnot : separator.toList.isPrefixOf (c :: p ++ (separator.toList ++ rest)) ≠ true := by
      intro hprefix
      obtain ⟨t, ht⟩ := List.isPrefixOf_iff_prefix.mp hprefix
      have hshort : separator.toList <+: c :: p ++ separator.toList := by
        refine List.prefix_of_prefix_length_le ⟨t, ht⟩ ?_ (by rw [List.length_append]; omega)
        exact (List.prefix_append_right_inj _).mpr (List.prefix_append _ rest)
      exact h (separator_shift (by simp) hshort).isInfix
    rw [List.cons_append, afterSeparator, ← List.cons_append, if_neg hnot]
    exact ih fun hpart => h (hpart.trans (List.suffix_cons c _).isInfix)

/-! ### The file of a record -/

section Files

variable (host : Host)

/-- The text of a record whose session has its date and slug as they are. -/
def entryText (b : SessionBody) (closeSeq : ℤ) : String :=
  prose b.slug b.sessionDate b ++ separator ++ host.dumps (.obj (b.payload closeSeq))

/-- The record of a close, but for its identities and times. -/
def entryRecord (b : SessionBody) (closeSeq : ℤ) : KnowledgeRecord :=
  (sessionParts b (entryText host b closeSeq)).draft host ""

def entryArtifact (b : SessionBody) (closeSeq : ℤ) : String :=
  recordToArtifact host (entryRecord host b closeSeq)

/-- The `knowledge_id` of a close. -/
def entryId (b : SessionBody) (closeSeq : ℤ) : String :=
  computeKnowledgeId host (computeEntityId host repositoryIdDefault ("session:" ++ b.slug) b.slug)
    "session/unrevisioned" (host.sha256 (entryArtifact host b closeSeq)) "session/v1"

def Entry.file (e : Entry) : ArtifactFile where
  name := entryId host e.body e.closeSeq ++ ".json"
  content := some (entryArtifact host e.body e.closeSeq)
  mtime := e.time

def Entry.triple (e : Entry) : Triple where
  file := e.file host
  artifact := Json.sortFields (artifactDoc (entryRecord host e.body e.closeSeq))
  payload := Json.sortFields (e.body.payload e.closeSeq)

/-- What is relied on of the standard library for the records of the entries, and of the other
files of the directory: `json.loads` reads what `json.dumps` wrote, the digests tell records apart,
and the other files are of other producers. -/
structure Faithful (others : List ArtifactFile) (es : List Entry) : Prop where
  artifact_read : ∀ e ∈ es, host.loads (entryArtifact host e.body e.closeSeq) =
    .ok (Json.sortKeys (.obj (artifactDoc (entryRecord host e.body e.closeSeq))))
  payload_read : ∀ e ∈ es, host.loads (host.dumps (.obj (e.body.payload e.closeSeq))) =
    .ok (Json.sortKeys (.obj (e.body.payload e.closeSeq)))
  apart : ∀ e ∈ es, ∀ e' ∈ es, entryId host e.body e.closeSeq = entryId host e'.body e'.closeSeq →
    e.body = e'.body ∧ e.closeSeq = e'.closeSeq
  fresh : ∀ e ∈ es, ∀ file ∈ others, file.name ≠ (e.file host).name
  foreign : ∀ file ∈ others, classifySessionArtifact host file.content = .foreign

end Files

section Records

variable {host : Host} {others : List ArtifactFile} {es all : List Entry}

lemma lookup_artifact {b : SessionBody} {n : ℤ} {key s : String} (hblank : key ∉ blankKeys)
    (hsubject : key ∉ subjectKeys)
    (h : Dict.get? key (entryRecord host b n).fields = some (.str s)) :
    KnowledgeRecord.lookup (Json.sortFields (artifactDoc (entryRecord host b n))) key = .str s := by
  rw [KnowledgeRecord.lookup, KnowledgeRecord.get?_artifact hblank hsubject,
    KnowledgeRecord.get?_toDict_of_fields h]
  rfl

lemma get?_payload (b : SessionBody) (n : ℤ) (key : String) :
    Dict.get? key (Json.sortFields (b.payload n)) = Dict.get? key (b.payload n) := by
  rw [Json.get?_sortFields]
  cases hget : Dict.get? key (b.payload n) with
  | none => rfl
  | some value =>
    have hmem := Dict.mem_of_get? hget
    have hsorted : value.sortKeys = value := by
      simp only [SessionBody.payload, List.mem_cons, Prod.mk.injEq, List.not_mem_nil,
        or_false] at hmem
      rcases hmem with h | h | h | h | h | h | h | h | h | h <;> rw [h.2] <;> simp
    rw [Option.map_some, hsorted]

lemma text_payload {b : SessionBody} {n : ℤ} {key s : String}
    (h : Dict.get? key (b.payload n) = some (.str s)) :
    textOf host (Json.sortFields (b.payload n)) key = s := by
  rw [textOf, get?_payload, h, Json.orElse]
  split
  · rfl
  · rename_i hempty
    have hs : s = "" := by simpa [Json.truthy] using hempty
    simp [Json.text, hs]

lemma jsonPart_entry {b : SessionBody} (hb : Separable b) (n : ℤ) :
    jsonPart (entryText host b n) = host.dumps (.obj (b.payload n)) := by
  rw [jsonPart, entryText, String.toList_append, String.toList_append, List.append_assoc,
    afterSeparator_append hb, Option.getD_some, String.ofList_toList]

lemma triple_of_record {file : ArtifactFile} {t : Triple} (hfile : t.file = file)
    (h : classifySessionArtifact host file.content = .record t.artifact t.payload) :
    triple? host file = some t := by
  subst hfile
  rw [triple?, h]

lemma triple_file (hf : Faithful host others all) {e : Entry} (he : e ∈ all)
    (hb : Separable e.body) : triple? host (e.file host) = some (e.triple host) := by
  have hversion := @lookup_artifact host e.body e.closeSeq "extractor_version" "session/v1"
    (by decide) (by decide) rfl
  have hrepository := @lookup_artifact host e.body e.closeSeq "repository_id" repositoryIdDefault
    (by decide) (by decide) rfl
  have htext := @lookup_artifact host e.body e.closeSeq "text"
    (entryText host e.body e.closeSeq) (by decide) (by decide) rfl
  have hactor : KnowledgeRecord.lookup (Json.sortFields (e.body.payload e.closeSeq)) "actor" =
      .str "aio" := by
    rw [KnowledgeRecord.lookup, get?_payload]
    rfl
  have hscope : KnowledgeRecord.lookup (Json.sortFields (e.body.payload e.closeSeq)) "scope" =
      .str (aioAclScope repositoryIdDefault) := by
    rw [KnowledgeRecord.lookup, get?_payload]
    rfl
  have hclassify : classifySessionArtifact host (e.file host).content =
      .record (e.triple host).artifact (e.triple host).payload := by
    simp only [Entry.file, Entry.triple, classifySessionArtifact, hf.artifact_read e he,
      Json.sortKeys, hversion, hrepository, htext, isText, decide_true, not_true_eq_false, if_false,
      jsonPart_entry hb, hf.payload_read e he, hactor, hscope]
  exact triple_of_record rfl hclassify

lemma scan_perm (hf : Faithful host others all) (hes : ∀ e ∈ es, e ∈ all)
    (hb : ∀ e ∈ es, Separable e.body) {dir : List ArtifactFile}
    (hdir : dir = others ++ es.map (Entry.file host)) :
    ((sessionArtifactFiles dir).filterMap (triple? host)).Perm (es.map (Entry.triple host)) := by
  have hothers : others.filterMap (triple? host) = [] := by
    rw [List.filterMap_eq_nil_iff]
    intro file hfile
    rw [triple?, hf.foreign file hfile]
  have hspine : (es.map (Entry.file host)).filterMap (triple? host) =
      es.map (Entry.triple host) := by
    rw [List.filterMap_map, ← List.filterMap_eq_map]
    refine List.filterMap_congr fun e he => ?_
    exact triple_file hf (hes e he) (hb e he)
  have hperm := (sortBy_perm (·.name) dir).filterMap (triple? host)
  rwa [hdir, List.filterMap_append, hothers, List.nil_append, hspine, ← hdir] at hperm

/-! ### Closing -/

lemma closeSequenceNumber_eq (hf : Faithful host others all) (hes : ∀ e ∈ es, e ∈ all)
    (hb : ∀ e ∈ es, Separable e.body) {dir : List ArtifactFile}
    (hdir : dir = others ++ es.map (Entry.file host)) {b : SessionBody} (hdate : b.sessionDate ≠ "")
    (hslug : b.slug ≠ "") :
    closeSequenceNumber host (.str b.sessionDate) (.str b.slug) dir = (peers es b : ℤ) + 1 := by
  have hcount : ((sessionArtifactFiles dir).filterMap (triple? host)).countP
      (isPeer host (.str b.sessionDate) (.str b.slug)) = peers es b := by
    rw [(scan_perm hf hes hb hdir).countP_eq, List.countP_map, peers]
    refine List.countP_congr fun e _ => ?_
    have hd : textOf host (e.triple host).payload "session_date" = e.body.sessionDate :=
      text_payload rfl
    have hs : textOf host (e.triple host).payload "slug" = e.body.slug := text_payload rfl
    simp only [Function.comp, isPeer, hd, hs, isText, Bool.and_eq_true, decide_eq_true_eq,
      Bool.not_eq_true', decide_eq_false_iff_not, ne_eq]
    constructor
    · rintro ⟨hdate, hslug⟩
      exact ⟨hdate.symm, fun h => hslug h.symm⟩
    · rintro ⟨hdate, hslug⟩
      exact ⟨hdate.symm, fun h => hslug h.symm⟩
  rw [closeSequenceNumber, hcount, if_neg (by simp [Json.truthy, hdate, hslug])]

/-- The session gives the body, and its date and slug are the texts that it keeps. -/
structure Plain (host : Host) (session : Dict Json) (b : SessionBody) : Prop where
  body : sessionBody host session = .ok b
  date : Dict.get? "session_date" session = some (.str b.sessionDate)
  slug : Dict.get? "slug" session = some (.str b.slug)

lemma ne_of_contentValue {session : Dict Json} {field value : String}
    (h : contentValue host session field = .ok value) : value ≠ "" := by
  simp only [contentValue] at h
  by_cases hempty : strip (textOf host session field) = ""
  · rw [if_pos hempty] at h
    cases h
  · rw [if_neg hempty] at h
    rw [← Except.ok.inj h]
    exact hempty

lemma Plain.ne {session : Dict Json} {b : SessionBody} (h : Plain host session b) :
    b.sessionDate ≠ "" ∧ b.slug ≠ "" := by
  have hbody := h.body
  simp only [sessionBody, bind_eq_ok] at hbody
  obtain ⟨date, hdate, slug, hslug, _, -, _, -, _, -, _, -, hb⟩ := hbody
  rw [← Except.ok.inj hb]
  exact ⟨ne_of_contentValue hdate, ne_of_contentValue hslug⟩

lemma orElse_text {s : String} (h : s ≠ "") (fallback : Json) :
    Json.orElse (some (.str s)) fallback = .str s := by
  simp [Json.orElse, Json.truthy, h]

lemma blank_eq_map {keys : List String} {d : Dict Json}
    (h : ∀ key ∈ keys, (Dict.get? key d).isSome = true) :
    blank keys d = d.map fun kv => if kv.1 ∈ keys then (kv.1, .str "") else kv := by
  induction keys generalizing d with
  | nil => simp [blank]
  | cons key keys ih =>
    have hset : blank (key :: keys) d = blank keys (Dict.set key (.str "") d) := rfl
    have hkeys : ∀ k ∈ keys, (Dict.get? k (Dict.set key (.str "") d)).isSome = true := by
      intro k hk
      rw [Dict.get?_set]
      split
      · rfl
      · exact h k (List.mem_cons_of_mem _ hk)
    rw [hset, ih hkeys, Dict.set, if_pos (h key List.mem_cons_self), List.map_map]
    refine List.map_congr_left fun kv _ => ?_
    by_cases hkv : kv.1 = key
    · simp [hkv]
    · simp [hkv]

lemma artifactDoc_times (r : KnowledgeRecord) (validFrom indexedAt : String) :
    artifactDoc { r with validFrom, indexedAt } = artifactDoc r := by
  have hblank (r : KnowledgeRecord) :
      ∀ key ∈ blankKeys, (Dict.get? key r.toDict).isSome = true := by
    have hfield {key value : String} (h : Dict.get? key r.fields = some (.str value)) :
        (Dict.get? key r.toDict).isSome = true := by
      rw [KnowledgeRecord.get?_toDict_of_fields h]
      rfl
    simp only [blankKeys, List.forall_mem_cons, List.not_mem_nil, false_imp_iff, implies_true,
      and_true]
    exact ⟨hfield rfl, hfield rfl, hfield rfl, hfield rfl, hfield rfl⟩
  rw [artifactDoc, artifactDoc, blank_eq_map (hblank _), blank_eq_map (hblank _)]
  simp only [KnowledgeRecord.toDict, List.map_append, KnowledgeRecord.fields, List.map_cons,
    blankKeys, List.mem_cons, true_or, or_true, if_true]
  rfl

lemma buildRecord_session (b : SessionBody) (n : ℤ) (now : String) :
    ∃ record, buildRecord host (sessionParts b (entryText host b n)) now = .ok record ∧
      recordToArtifact host record = entryArtifact host b n ∧
      record.knowledgeId = entryId host b n := by
  have hdraft : (sessionParts b (entryText host b n)).draft host now =
      { entryRecord host b n with validFrom := now, indexedAt := now } := rfl
  have hentity : (sessionParts b (entryText host b n)).entity host =
      computeEntityId host repositoryIdDefault ("session:" ++ b.slug) b.slug := rfl
  have hartifact : recordToArtifact host { entryRecord host b n with
      validFrom := now, indexedAt := now } = entryArtifact host b n := by
    rw [recordToArtifact, artifactDoc_times]
    rfl
  have hsame (contentHash knowledgeId : String) : recordToArtifact host { entryRecord host b n with
      validFrom := now, indexedAt := now, contentHash, knowledgeId } = entryArtifact host b n :=
    (congrArg (fun doc => host.dumps (.obj doc)) (artifactDoc_identities
      { entryRecord host b n with validFrom := now, indexedAt := now } contentHash
      knowledgeId)).trans hartifact
  rw [buildRecord, if_neg (by simp [sessionParts])]
  simp only [hdraft, hentity, hartifact]
  exact ⟨_, rfl, hsame _ _, rfl⟩

/-- The store holds the records of the entries, behind the other files. -/
structure Represents (host : Host) (others : List ArtifactFile) (es : List Entry) (store : Store) :
    Prop where
  dir : store.dir = others ++ es.map (Entry.file host)
  published : ∀ e ∈ es,
    (Dict.get? (entryId host e.body e.closeSeq) store.checkpoint).isSome = true

section Close

variable {store : Store} {c : Close} {b : SessionBody}
  (hf : Faithful host others all) (hes : ∀ e ∈ es, e ∈ all) (hb : ∀ e ∈ es, Separable e.body)
  (hrep : Represents host others es store) (hc : Plain host c.session b)

include hf hes hb hrep hc

lemma closeSession_eq : ∃ record,
    recordToArtifact host record = entryArtifact host b ((peers es b : ℤ) + 1) ∧
    record.knowledgeId = entryId host b ((peers es b : ℤ) + 1) ∧
    closeSession host store c =
      let file := Entry.file host ⟨b, (peers es b : ℤ) + 1, c.time⟩
      let durable := store.dir.any fun f => f.name = file.name && f.content = file.content
      let published := (Dict.get? record.knowledgeId store.checkpoint).isSome
      .ok ({ record, status := if durable && published then .noOp else .closed },
        { dir := if durable then store.dir else writeFile file store.dir
          checkpoint :=
            if published then store.checkpoint
            else Dict.set record.knowledgeId record.indexedAt store.checkpoint }) := by
  obtain ⟨hdate, hslug⟩ := hc.ne
  obtain ⟨record, hbuild, hartifact, hid⟩ :=
    @buildRecord_session host b ((peers es b : ℤ) + 1) c.now
  refine ⟨record, hartifact, hid, ?_⟩
  have htext : sessionText host c.session b ((peers es b : ℤ) + 1) =
      entryText host b ((peers es b : ℤ) + 1) := by
    simp only [sessionText, hc.slug, hc.date, orElse_text hdate, orElse_text hslug, Json.text,
      entryText]
  simp only [closeSession, hc.date, hc.slug, orElse_text hdate, orElse_text hslug,
    closeSequenceNumber_eq hf hes hb hrep.dir hdate hslug, hc.body, htext, hbuild, bind,
    Except.bind, Except.mapError, hartifact]
  rw [hid]
  rfl

lemma closeSession_recorded {e : Entry} (he : e ∈ es) (hbody : e.body = b)
    (hseq : e.closeSeq = (peers es b : ℤ) + 1) :
    ∃ record, closeSession host store c = .ok ({ record, status := .noOp }, store) := by
  obtain ⟨record, -, hid, hclose⟩ := closeSession_eq hf hes hb hrep hc
  have hdurable : (store.dir.any fun f =>
      f.name = (Entry.file host ⟨b, (peers es b : ℤ) + 1, c.time⟩).name &&
        f.content = (Entry.file host ⟨b, (peers es b : ℤ) + 1, c.time⟩).content) = true := by
    rw [List.any_eq_true, hrep.dir]
    refine ⟨e.file host, List.mem_append_right _ (List.mem_map_of_mem he), ?_⟩
    simp [Entry.file, hbody, hseq]
  have hpublished : (Dict.get? record.knowledgeId store.checkpoint).isSome = true := by
    have hentry := hrep.published e he
    rw [hbody, hseq] at hentry
    rw [hid]
    exact hentry
  refine ⟨record, ?_⟩
  rw [hclose]
  simp only [hdurable, hpublished, Bool.and_self, if_true]

lemma closeSession_new (hnew : ∀ e ∈ es, e.body = b → e.closeSeq ≠ (peers es b : ℤ) + 1)
    (hmem : (⟨b, (peers es b : ℤ) + 1, c.time⟩ : Entry) ∈ all) :
    ∃ result store', closeSession host store c = .ok (result, store') ∧ result.status = .closed ∧
      Represents host others (es ++ [⟨b, (peers es b : ℤ) + 1, c.time⟩]) store' := by
  obtain ⟨record, -, hid, hclose⟩ := closeSession_eq hf hes hb hrep hc
  have hname : ∀ f ∈ store.dir,
      f.name ≠ (Entry.file host ⟨b, (peers es b : ℤ) + 1, c.time⟩).name := by
    intro f hmemf
    rw [hrep.dir] at hmemf
    rcases List.mem_append.mp hmemf with hother | hspine
    · exact hf.fresh _ hmem f hother
    · obtain ⟨e, he, rfl⟩ := List.mem_map.mp hspine
      intro hsame
      have hids : entryId host e.body e.closeSeq = entryId host b ((peers es b : ℤ) + 1) :=
        String.append_left_inj _ |>.mp hsame
      obtain ⟨hbody, hseq⟩ := hf.apart e (hes e he) _ hmem hids
      exact hnew e he hbody hseq
  have hdurable : (store.dir.any fun f =>
      f.name = (Entry.file host ⟨b, (peers es b : ℤ) + 1, c.time⟩).name &&
        f.content = (Entry.file host ⟨b, (peers es b : ℤ) + 1, c.time⟩).content) = false := by
    rw [List.any_eq_false]
    intro f hmemf
    simp [hname f hmemf]
  have hwrite : store.dir.any (fun f =>
      f.name = (Entry.file host ⟨b, (peers es b : ℤ) + 1, c.time⟩).name) = false := by
    rw [List.any_eq_false]
    intro f hmemf
    simp [hname f hmemf]
  refine ⟨_, _, hclose, by simp only [hdurable, Bool.false_and, Bool.false_eq_true, if_false],
    ?_, ?_⟩
  · simp only [hdurable, Bool.false_eq_true, if_false, writeFile, hwrite]
    rw [hrep.dir, List.map_append, List.append_assoc]
    rfl
  · intro e he
    simp only
    by_cases hpublished : (Dict.get? record.knowledgeId store.checkpoint).isSome = true
    · rw [if_pos hpublished]
      rcases List.mem_append.mp he with he | he
      · exact hrep.published e he
      · rw [List.mem_singleton.mp he, ← hid]
        exact hpublished
    · rw [if_neg hpublished, Dict.get?_set]
      split
      · rfl
      · rename_i hne
        rcases List.mem_append.mp he with he | he
        · exact hrep.published e he
        · rw [List.mem_singleton.mp he, ← hid] at hne
          exact absurd rfl hne

end Close

/-- A call meets the condition, as a close of the body. -/
structure Sound (host : Host) (c : Close) (p : Closed) : Prop where
  plain : Plain host c.session p.1
  separable : Separable p.1
  time : c.time = p.2

lemma closeSession_step (hf : Faithful host others all) {store : Store} {c : Close} {p : Closed}
    (hc : Sound host c p) (hes : ∀ e ∈ recordClose es p, e ∈ all)
    (hb : ∀ e ∈ es, Separable e.body) (hrep : Represents host others es store) :
    ∃ result store', closeSession host store c = .ok (result, store') ∧
      Represents host others (recordClose es p) store' := by
  by_cases hany : (es.any fun e => e.body = p.1 && e.closeSeq = (peers es p.1 : ℤ) + 1) = true
  · rw [recordClose, if_pos hany] at hes ⊢
    obtain ⟨e, he, hsame⟩ := List.any_eq_true.mp hany
    simp only [Bool.and_eq_true, decide_eq_true_eq] at hsame
    obtain ⟨record, hclose⟩ := closeSession_recorded hf hes hb hrep hc.plain he hsame.1 hsame.2
    exact ⟨_, _, hclose, hrep⟩
  · rw [recordClose, if_neg hany, ← hc.time] at hes ⊢
    have hnew : ∀ e ∈ es, e.body = p.1 → e.closeSeq ≠ (peers es p.1 : ℤ) + 1 := by
      intro e he hbody hseq
      exact hany (List.any_eq_true.mpr ⟨e, he, by simp [hbody, hseq]⟩)
    obtain ⟨result, store', hclose, -, hrep'⟩ :=
      closeSession_new hf (fun e he => hes e (List.mem_append_left _ he)) hb hrep hc.plain hnew
        (hes _ (List.mem_append_right _ (List.mem_singleton_self _)))
    exact ⟨result, store', hclose, hrep'⟩

lemma prefix_spine (history : List Closed) : es <+: history.foldl recordClose es := by
  induction history generalizing es with
  | nil => exact List.prefix_refl es
  | cons c history ih =>
    refine List.IsPrefix.trans ?_ ih
    rw [recordClose]
    split
    · exact List.prefix_refl es
    · exact List.prefix_append _ _

lemma separable_spine {history : List Closed} (h : ∀ p ∈ history, Separable p.1)
    (ho : Orderly history) : ∀ e ∈ spineOf history, Separable e.body := by
  intro e he
  exact h e.close ((spine_of_orderly ho).sub.subset (List.mem_map_of_mem he))

lemma closeAll_represents (hf : Faithful host others all) {closes : List Close}
    {before history : List Closed} (hsound : List.Forall₂ (Sound host) closes history)
    (ho : Orderly (before ++ history)) (hbefore : ∀ p ∈ before, Separable p.1) {store : Store}
    (hall : ∀ e ∈ spineOf (before ++ history), e ∈ all)
    (hrep : Represents host others (spineOf before) store) :
    ∃ store', closeAll host store closes = .ok store' ∧
      Represents host others (spineOf (before ++ history)) store' := by
  induction hsound generalizing before store with
  | nil =>
    rw [List.append_nil]
    exact ⟨store, rfl, hrep⟩
  | @cons c p closes history hc _ ih =>
    have hbefore' : Orderly before :=
      ⟨fun _ _ _ hsub => ho.follows _ _ _ (hsub.trans (List.sublist_append_left _ _)),
        fun _ _ hsub => ho.later _ _ (hsub.trans (List.sublist_append_left _ _))⟩
    have hrecord : recordClose (spineOf before) p = spineOf (before ++ [p]) := by
      rw [spineOf, spineOf, List.foldl_append]
      rfl
    have happend : before ++ p :: history = before ++ [p] ++ history := by simp
    rw [happend] at ho hall ⊢
    have hnext : ∀ e ∈ recordClose (spineOf before) p, e ∈ all := by
      intro e he
      refine hall e ?_
      rw [hrecord] at he
      rw [spineOf, List.foldl_append]
      exact (prefix_spine history).subset he
    obtain ⟨result, store', hclose, hrep'⟩ :=
      closeSession_step hf hc hnext (separable_spine hbefore hbefore') hrep
    rw [hrecord] at hrep'
    obtain ⟨store'', hrun, hrep''⟩ := ih ho (by
      intro q hq
      rcases List.mem_append.mp hq with hq | hq
      · exact hbefore q hq
      · rw [List.mem_singleton.mp hq]
        exact hc.separable) hall hrep'
    refine ⟨store'', ?_, hrep''⟩
    simp only [closeAll, hclose, bind, Except.bind]
    exact hrun

/-! ### Opening -/

lemma maxByKey_eq {α : Type} {key : α → SelectionKey} {l : List α} {m : α} (hm : m ∈ l)
    (hself : (key m).lt (key m) = false)
    (h : ∀ x ∈ l, x = m ∨ (key x).lt (key m) = true ∧ (key m).lt (key x) = false) :
    maxByKey key l = some m := by
  have hfold : ∀ (l : List α) (best : α),
      (∀ x ∈ best :: l, x = m ∨ (key x).lt (key m) = true ∧ (key m).lt (key x) = false) →
      m ∈ best :: l →
      l.foldl (fun best y => if (key best).lt (key y) then y else best) best = m := by
    intro l
    induction l with
    | nil =>
      intro best _ hmem
      exact (List.mem_singleton.mp hmem).symm
    | cons y l ih =>
      intro best hall hmem
      rw [List.foldl_cons]
      have hbest := hall best List.mem_cons_self
      have hy := hall y (List.mem_cons_of_mem _ List.mem_cons_self)
      by_cases hlt : (key best).lt (key y) = true
      · rw [if_pos hlt]
        refine ih y (fun x hx => hall x (List.mem_cons_of_mem _ hx)) ?_
        rcases List.mem_cons.mp hmem with rfl | hmem
        · rcases hy with rfl | hy
          · exact List.mem_cons_self
          · rw [hy.2] at hlt
            cases hlt
        · exact hmem
      · rw [if_neg hlt]
        refine ih best (fun x hx => ?_) ?_
        · rcases List.mem_cons.mp hx with rfl | hx
          · exact hbest
          · exact hall x (List.mem_cons_of_mem _ (List.mem_cons_of_mem _ hx))
        · rcases List.mem_cons.mp hmem with rfl | hmem
          · exact List.mem_cons_self
          · rcases List.mem_cons.mp hmem with rfl | hmem
            · rcases hbest with rfl | hbest
              · exact List.mem_cons_self
              · exact absurd hbest.1 hlt
            · exact List.mem_cons_of_mem _ hmem
  cases l with
  | nil => cases hm
  | cons x l => exact congrArg some (hfold l x h hm)

lemma lt_of_smaller {a b : SelectionKey} (h : a.sessionDate < b.sessionDate ∨
    a.sessionDate = b.sessionDate ∧ (a.closeSeq < b.closeSeq ∨
      a.closeSeq = b.closeSeq ∧ a.slug = b.slug ∧ a.mtime < b.mtime)) :
    a.lt b = true ∧ b.lt a = false := by
  rcases h with hdate | ⟨hdate, hseq | ⟨hseq, hslug, htime⟩⟩
  · have hne : b.sessionDate ≠ a.sessionDate := hdate.ne'
    simp [SelectionKey.lt, hdate, hne, lt_asymm hdate]
  · have hne : b.closeSeq ≠ a.closeSeq := hseq.ne'
    simp [SelectionKey.lt, hdate, hseq, hne, hseq.le]
  · have hne : b.mtime ≠ a.mtime := htime.ne'
    simp [SelectionKey.lt, hdate, hseq, hslug, htime, hne, htime.le]

lemma lt_self (a : SelectionKey) : a.lt a = false := by
  simp [SelectionKey.lt]

def Entry.key (host : Host) (e : Entry) : SelectionKey :=
  selectionKey host (e.triple host) e.closeSeq

lemma key_eq (e : Entry) : e.key host =
    { sessionDate := e.body.sessionDate
      closeSeq := e.closeSeq
      slug := e.body.slug
      mtime := e.time
      name := (e.file host).name } := by
  have hdate : textOf host (e.triple host).payload "session_date" = e.body.sessionDate :=
    text_payload rfl
  have hslug : textOf host (e.triple host).payload "slug" = e.body.slug := text_payload rfl
  simp only [Entry.key, selectionKey, hdate, hslug]
  rfl

lemma closeSeqOf_triple (e : Entry) :
    closeSeqOf host (e.triple host).payload = .ok e.closeSeq := by
  have hget : Dict.get? "close_seq" (e.triple host).payload = some (.int e.closeSeq) := by
    rw [Entry.triple, get?_payload]
    rfl
  rw [closeSeqOf, hget, Json.orElse]
  split
  · rfl
  · rename_i hzero
    have hseq : e.closeSeq = 0 := by simpa [Json.truthy] using hzero
    rw [hseq]
    rfl

/-- The entry is one of those that are asked for. -/
def Asked (requested : Option String) (e : Entry) : Prop :=
  ∀ slug, requested = some slug → e.body.slug = slug

lemma openSession_eq (hf : Faithful host others all) (hes : ∀ e ∈ es, e ∈ all)
    (hb : ∀ e ∈ es, Separable e.body) {dir : List ArtifactFile}
    (hdir : dir = others ++ es.map (Entry.file host)) {slug : Option String} {m : Entry}
    (hm : m ∈ es)
    (hasked : Asked ((slug.map strip).filter (· ≠ "")) m)
    (hmax : ∀ e ∈ es, Asked ((slug.map strip).filter (· ≠ "")) e → e = m ∨
      (e.key host).lt (m.key host) = true ∧ (m.key host).lt (e.key host) = false) :
    ∃ result, openSession host slug dir = .ok result ∧ result.opened = some (m.triple host) := by
  have hperm := scan_perm hf hes hb hdir
  generalize hreq : (slug.map strip).filter (· ≠ "") = requested at hasked hmax
  have hasks (e : Entry) : isAsked host requested (e.triple host) = true ↔ Asked requested e := by
    have htext : textOf host (e.triple host).payload "slug" = e.body.slug := text_payload rfl
    cases requested with
    | none => simp [isAsked, Asked]
    | some slug => simp [isAsked, Asked, htext]
  generalize hasked' : isAsked host requested = asks at hasks
  let keyed (t : Triple) : SelectionKey × Triple :=
    (selectionKey host t ((closeSeqOf host t.payload).toOption.getD 0), t)
  have hkeyed (e : Entry) : keyed (e.triple host) = (e.key host, e.triple host) := by
    simp only [keyed, closeSeqOf_triple, Except.toOption, Option.getD_some, Entry.key]
  have hmem {t : Triple} (ht : t ∈ ((sessionArtifactFiles dir).filterMap (triple? host)).filter
      asks) : ∃ e ∈ es, Asked requested e ∧ t = e.triple host := by
    obtain ⟨hscan, hask⟩ := List.mem_filter.mp ht
    obtain ⟨e, he, rfl⟩ := List.mem_map.mp (hperm.mem_iff.mp hscan)
    exact ⟨e, he, (hasks e).mp hask, rfl⟩
  have hmap : (((sessionArtifactFiles dir).filterMap (triple? host)).filter asks).mapM (fun t => do
        let closeSeq ← closeSeqOf host t.payload
        .ok (selectionKey host t closeSeq, t)) =
      .ok ((((sessionArtifactFiles dir).filterMap (triple? host)).filter asks).map keyed) := by
    refine (mapM_eq_ok (g := keyed) ?_).mpr ⟨?_, rfl⟩
    · intro t k hk
      obtain ⟨n, hn, hk⟩ := bind_eq_ok.mp hk
      rw [← Except.ok.inj hk]
      simp only [keyed, hn, Except.toOption, Option.getD_some]
    · intro t ht
      obtain ⟨e, -, -, rfl⟩ := hmem ht
      rw [hkeyed, closeSeqOf_triple]
      rfl
  have hlast : maxByKey Prod.fst
      ((((sessionArtifactFiles dir).filterMap (triple? host)).filter asks).map keyed) =
        some (m.key host, m.triple host) := by
    refine maxByKey_eq ?_ (lt_self _) ?_
    · rw [← hkeyed]
      refine List.mem_map_of_mem (List.mem_filter.mpr ⟨?_, (hasks m).mpr hasked⟩)
      exact hperm.mem_iff.mpr (List.mem_map_of_mem hm)
    · intro k hk
      obtain ⟨t, ht, rfl⟩ := List.mem_map.mp hk
      obtain ⟨e, he, hask, rfl⟩ := hmem ht
      rw [hkeyed]
      rcases hmax e he hask with rfl | hlt
      · exact .inl rfl
      · exact .inr hlt
  have hopen : openSession host slug dir = .ok
      { opened := (maxByKey Prod.fst
          ((((sessionArtifactFiles dir).filterMap (triple? host)).filter asks).map keyed)).map
            Prod.snd
        requestedSlug := requested
        candidates := (scanSessionRecords host dir).1.length
        warnings := (scanSessionRecords host dir).2 } := by
    rw [openSession]
    simp only [hreq, scanSessionRecords, hasked']
    exact bind_eq_ok.mpr ⟨_, hmap, rfl⟩
  refine ⟨_, hopen, ?_⟩
  simp only [hlast, Option.map_some]

lemma key_lt {e m : Entry} (h : e.body.sessionDate < m.body.sessionDate ∨
    e.body.sessionDate = m.body.sessionDate ∧ Before e m) :
    (e.key host).lt (m.key host) = true ∧ (m.key host).lt (e.key host) = false := by
  rw [key_eq, key_eq]
  refine lt_of_smaller ?_
  rcases h with hdate | ⟨hdate, hbefore⟩
  · exact .inl hdate
  · right
    refine ⟨hdate, ?_⟩
    by_cases hslug : e.body.slug = m.body.slug
    · obtain ⟨hseq, htime⟩ := hbefore.again hdate hslug
      exact .inr ⟨hseq, hslug, htime⟩
    · exact .inl (hbefore.other hdate hslug)

lemma before_last (h : es.Pairwise Before) {p : Entry → Bool} {e m : Entry} (he : e ∈ es)
    (hp : p e = true) (hlast : (es.filter p).getLast? = some m) : e = m ∨ Before e m := by
  obtain ⟨init, hinit⟩ := List.getLast?_eq_some_iff.mp hlast
  have hmem : e ∈ init ++ [m] := hinit ▸ List.mem_filter.mpr ⟨he, hp⟩
  have hpairs : (init ++ [m]).Pairwise Before := hinit ▸ h.sublist List.filter_sublist
  rcases List.mem_append.mp hmem with hmem | hmem
  · exact .inr ((List.pairwise_append.mp hpairs).2.2 e hmem m (List.mem_singleton_self m))
  · exact .inl (List.mem_singleton.mp hmem)

lemma last_entry {p : Closed → Bool} {c : Closed}
    (hlast : ((es.map Entry.close).filter p).getLast? = some c) :
    ∃ m ∈ es, m.close = c ∧ p c = true ∧ (es.filter (p ∘ Entry.close)).getLast? = some m := by
  rw [List.filter_map, List.getLast?_map] at hlast
  obtain ⟨m, hm, rfl⟩ := Option.map_eq_some_iff.mp hlast
  obtain ⟨hmem, hp⟩ := List.mem_filter.mp (List.mem_of_getLast? hm)
  exact ⟨m, hmem, rfl, hp, hm⟩

end Records

/-! ### Runs -/

/-- Opening the session finds the close, field for field. -/
def Opens (host : Host) (slug : Option String) (store : Store) (c : Closed) : Prop :=
  ∃ result t n, openSession host slug store.dir = .ok result ∧ result.opened = some t ∧
    ∀ key, Dict.get? key t.payload = Dict.get? key (c.1.payload n)

/-- What is to hold of the store after the closes: closing again what is recorded is a no-op, a slug
opens its last distinct close, unless that has an earlier date than another one of its closes, and
without a slug the last distinct close of the greatest date is opened. -/
structure ReadsLast (host : Host) (history : List Closed) (store : Store) : Prop where
  noOp : ∀ c b, Plain host c.session b → b ∈ history.map Prod.fst →
    Orderly (history ++ [(b, c.time)]) →
      ∃ record, closeSession host store c = .ok ({ record, status := .noOp }, store)
  bySlug : ∀ slug c, strip slug ≠ "" →
    ((distinctCloses history).filter fun c => c.1.slug = strip slug).getLast? = some c →
    (∀ c' ∈ history, c'.1.slug = strip slug → c'.1.sessionDate ≤ c.1.sessionDate) →
      Opens host (some slug) store c
  latest : ∀ date c,
    ((distinctCloses history).filter fun c => c.1.sessionDate = date).getLast? = some c →
    (∀ c' ∈ history, c'.1.sessionDate ≤ date) → Opens host none store c

section Run

variable {host : Host} {others : List ArtifactFile} {history : List Closed} {store : Store}

lemma opens_of_greatest (hf : Faithful host others (spineOf history))
    (hb : ∀ e ∈ spineOf history, Separable e.body)
    (hrep : Represents host others (spineOf history) store) {slug : Option String} {m : Entry}
    (hm : m ∈ spineOf history) (hasked : Asked ((slug.map strip).filter (· ≠ "")) m)
    (hmax : ∀ e ∈ spineOf history, Asked ((slug.map strip).filter (· ≠ "")) e → e = m ∨
      e.body.sessionDate < m.body.sessionDate ∨
        e.body.sessionDate = m.body.sessionDate ∧ Before e m) :
    Opens host slug store m.close := by
  obtain ⟨result, hopen, hresult⟩ := openSession_eq hf (fun _ h => h) hb hrep.dir hm hasked
    fun e he hask => (hmax e he hask).imp_right key_lt
  exact ⟨result, m.triple host, m.closeSeq, hopen, hresult, get?_payload _ _⟩

lemma separable_of_sound {closes : List Close}
    (h : List.Forall₂ (Sound host) closes history) : ∀ p ∈ history, Separable p.1 := by
  induction h with
  | nil => simp
  | cons hc _ ih => exact List.forall_mem_cons.mpr ⟨hc.separable, ih⟩

end Run

/-! ### Two sessions of a day -/

def morning : SessionBody where
  sessionDate := "2026-09-08"
  slug := "morning"
  merged := ["parser"]
  openThreads := []
  parked := []
  wavesRun := []
  selfNotes := ""

def evening : SessionBody :=
  { morning with slug := "evening", merged := [], selfNotes := "late" }

def fieldText (fields : Dict Json) (key : String) : String :=
  match Dict.get? key fields with
  | some (.str s) => s
  | some (.int n) => toString n
  | _             => ""

/-- `json.dumps` of a payload of the day, with a text for each quote. -/
def payloadText (quote : String) (fields : Dict Json) : String :=
  let merged :=
    match Dict.get? "merged" fields with
    | some (.arr [.str s]) => quote ++ s ++ quote
    | _                    => ""
  let key (name : String) := quote ++ name ++ quote ++ ": "
  "\x7b" ++ key "actor" ++ quote ++ "aio" ++ quote ++ ", " ++
  key "close_seq" ++ fieldText fields "close_seq" ++ ", " ++
  key "merged" ++ "[" ++ merged ++ "], " ++ key "open_threads" ++ "[], " ++
  key "parked" ++ "[], " ++
  key "scope" ++ quote ++ "org:agentic-dynamics" ++ quote ++ ", " ++
  key "self_notes" ++ quote ++ fieldText fields "self_notes" ++ quote ++ ", " ++
  key "session_date" ++ quote ++ "2026-09-08" ++ quote ++ ", " ++
  key "slug" ++ quote ++ fieldText fields "slug" ++ quote ++ ", " ++ key "waves_run" ++ "[]\x7d"

/-- The morning, the evening, and the morning again. -/
def dayEntries : List Entry := [⟨morning, 1, 1⟩, ⟨evening, 2, 2⟩, ⟨morning, 2, 3⟩]

/-- The texts of the day with their quotes escaped. -/
def escapedTexts : Dict String :=
  dayEntries.map fun e =>
    let head := prose e.body.slug e.body.sessionDate e.body ++ separator
    (head ++ payloadText "\"" (e.body.payload e.closeSeq),
      head ++ payloadText "\\\"" (e.body.payload e.closeSeq))

/-- `json.dumps` of an artifact of the day. -/
def artifactText (fields : Dict Json) : String :=
  "\x7b\"acl_scope\": \"org:agentic-dynamics\", \"authority\": \"ADVISORY\", " ++
  "\"branch\": \"\", \"causes\": null, \"commit_sha\": \"\", \"confidence\": null, " ++
  "\"contains_sensitive_data\": false, \"content_hash\": \"\", \"embedding_version\": \"\", " ++
  "\"entity_id\": \"" ++ fieldText fields "entity_id" ++ "\", \"evidence_class\": \"[H]\", " ++
  "\"extractor_version\": \"session/v1\", \"indexed_at\": \"\", \"knowledge_id\": \"\", " ++
  "\"language\": \"\", \"logical_locator\": \"" ++ fieldText fields "logical_locator" ++
  "\", \"observed_at\": \"\", \"outcome_id\": \"\", \"perturbation_strength\": null, " ++
  "\"repository_id\": \"agentic-dynamics\", \"source_type\": \"meta_session\", " ++
  "\"source_uri\": \"" ++ fieldText fields "source_uri" ++ "\", \"supersedes\": null, " ++
  "\"symbols\": [], \"test_executed_success\": null, \"text\": \"" ++
  (Dict.get? (fieldText fields "text") escapedTexts).getD "" ++ "\", \"token_count\": " ++
  fieldText fields "token_count" ++ ", \"valid_from\": \"\", \"valid_to\": null, " ++
  "\"worktree_id\": \"\"\x7d"

def dayText : Json → String
  | .obj fields =>
    if (Dict.get? "text" fields).isSome then artifactText fields
    else payloadText "\"" fields
  | _           => ""

/-- A host that reads the documents of a list. -/
def tableHost (documents : List Json) : Host where
  loads text :=
    match documents.find? fun document => dayText document = text with
    | some document => .ok document.sortKeys
    | none          => .error ("JSONDecodeError", "")
  repr _ := ""
  upper := String.toUpper
  lower := String.toLower
  sha256 := id
  dumps := dayText
  fromisoformat _ := none

def dayDocuments : List Json :=
  dayEntries.flatMap fun e =>
    [.obj (artifactDoc (entryRecord (tableHost []) e.body e.closeSeq)),
      .obj (e.body.payload e.closeSeq)]

def dayHost : Host := tableHost dayDocuments

lemma loads_table {documents : List Json} {document : Json}
    (hnodup : (documents.map dayText).Nodup) (h : document ∈ documents) :
    (tableHost documents).loads (dayText document) = .ok document.sortKeys := by
  have hfind : documents.find? (fun d => dayText d = dayText document) = some document := by
    cases hfound : documents.find? fun d => dayText d = dayText document with
    | none =>
      have hne := List.find?_eq_none.mp hfound document h
      simp at hne
    | some found =>
      have htext : dayText found = dayText document := by
        simpa using List.find?_some hfound
      rw [List.inj_on_of_nodup_map hnodup (List.mem_of_find?_eq_some hfound) h htext]
  simp only [tableHost, hfind]

lemma dayDocuments_nodup : (dayDocuments.map dayText).Nodup := by
  decide +kernel

lemma entryRecord_day (b : SessionBody) (n : ℤ) :
    entryRecord dayHost b n = entryRecord (tableHost []) b n := rfl

lemma loads_day {document : Json} (h : document ∈ dayDocuments) :
    dayHost.loads (dayHost.dumps document) = .ok document.sortKeys :=
  @loads_table dayDocuments document dayDocuments_nodup h

lemma day_ids : (dayEntries.map fun e => entryId dayHost e.body e.closeSeq).Nodup := by
  decide +kernel

lemma day_faithful : Faithful dayHost [] dayEntries := by
  have hartifact (e : Entry) (he : e ∈ dayEntries) :
      .obj (artifactDoc (entryRecord (tableHost []) e.body e.closeSeq)) ∈
        dayDocuments := List.mem_flatMap.mpr ⟨e, he, List.mem_cons_self⟩
  have hpayload (e : Entry) (he : e ∈ dayEntries) :
      .obj (e.body.payload e.closeSeq) ∈ dayDocuments :=
    List.mem_flatMap.mpr ⟨e, he, List.mem_cons_of_mem _ List.mem_cons_self⟩
  have hids : ∀ e ∈ dayEntries, ∀ e' ∈ dayEntries,
      entryId dayHost e.body e.closeSeq = entryId dayHost e'.body e'.closeSeq →
        e.body = e'.body ∧ e.closeSeq = e'.closeSeq := by
    intro e he e' he' h
    have hsame : e = e' := List.inj_on_of_nodup_map day_ids he he' h
    exact ⟨congrArg Entry.body hsame, congrArg Entry.closeSeq hsame⟩
  constructor
  · intro e he
    have hread := loads_day (hartifact e he)
    rw [← entryRecord_day] at hread
    rw [entryArtifact, recordToArtifact, hread]
  · intro e he
    rw [loads_day (hpayload e he)]
  · exact hids
  · intro e _ file hfile
    cases hfile
  · intro file hfile
    cases hfile

lemma Faithful.mono {host : Host} {others : List ArtifactFile} {es all : List Entry}
    (h : Faithful host others all) (hes : ∀ e ∈ es, e ∈ all) : Faithful host others es :=
  ⟨fun e he => h.artifact_read e (hes e he), fun e he => h.payload_read e (hes e he),
    fun e he e' he' => h.apart e (hes e he) e' (hes e' he'), fun e he => h.fresh e (hes e he),
    h.foreign⟩

def morningClose (time : ℕ) : Close where
  session := [("session_date", .str "2026-09-08"), ("slug", .str "morning"),
    ("merged", .arr [.str "parser"])]
  now := "2026-09-08T12:00:00+00:00"
  time := time

def eveningClose : Close where
  session := [("session_date", .str "2026-09-08"), ("slug", .str "evening"),
    ("self_notes", .str "late")]
  now := "2026-09-08T20:00:00+00:00"
  time := 2

lemma body_of_toOption {session : Dict Json} {b : SessionBody}
    (h : (sessionBody dayHost session).toOption = some b) :
    sessionBody dayHost session = .ok b := by
  cases hbody : sessionBody dayHost session with
  | error e => simp [hbody, Except.toOption] at h
  | ok b' =>
    rw [hbody] at h
    rw [Option.some.inj h]

lemma morning_sound (time : ℕ) : Sound dayHost (morningClose time) (morning, time) := by
  have hseparable : Separable morning := by
    rw [Separable]
    decide +kernel
  have hbody : (sessionBody dayHost (morningClose 0).session).toOption = some morning := by
    decide +kernel
  exact ⟨⟨body_of_toOption hbody, rfl, rfl⟩, hseparable, rfl⟩

lemma evening_sound : Sound dayHost eveningClose (evening, 2) := by
  have hseparable : Separable evening := by
    rw [Separable]
    decide +kernel
  have hbody : (sessionBody dayHost eveningClose.session).toOption = some evening := by
    decide +kernel
  exact ⟨⟨body_of_toOption hbody, rfl, rfl⟩, hseparable, rfl⟩

lemma day_orderly : Orderly [(morning, 1), (evening, 2)] where
  follows a b c h := absurd h.length_le (by simp)
  later a b h := by
    cases h.eq_of_length rfl
    intro _ hslug
    exact absurd hslug (by decide)

lemma day_spine : spineOf [(morning, 1), (evening, 2)] = dayEntries.take 2 := by
  decide +kernel

lemma mem_day : ∀ e ∈ spineOf [(morning, 1), (evening, 2)], e ∈ dayEntries := by
  rw [day_spine]
  exact fun _ h => List.mem_of_mem_take h

lemma day_sound :
    List.Forall₂ (Sound dayHost) [morningClose 1, eveningClose] [(morning, 1), (evening, 2)] :=
  .cons (morning_sound 1) (.cons evening_sound .nil)

lemma represents_nil : Represents dayHost [] (spineOf []) { dir := [], checkpoint := [] } where
  dir := rfl
  published := by simp [spineOf]

lemma day_store : ∃ store,
    closeAll dayHost { dir := [], checkpoint := [] } [morningClose 1, eveningClose] = .ok store ∧
      Represents dayHost [] (dayEntries.take 2) store := by
  have hrun := @closeAll_represents dayHost [] dayEntries day_faithful _ [] _ day_sound day_orderly
    (by simp) _ mem_day represents_nil
  rw [List.nil_append, day_spine] at hrun
  exact hrun

lemma morning_new : (∀ e ∈ dayEntries.take 2, e.body = morning →
      e.closeSeq ≠ (peers (dayEntries.take 2) morning : ℤ) + 1) ∧
    (⟨morning, (peers (dayEntries.take 2) morning : ℤ) + 1, 3⟩ : Entry) ∈ dayEntries := by
  decide +kernel

end AgenticDynamics.Knowledge.SessionSpine
