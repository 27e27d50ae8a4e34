import AgenticDynamics.Knowledge.Record

/-!
# From a record to its event and artifact, and back

What the artifact leaves out travels in the event. What comes back is the record, except where
the event carries something else than what was left out, or the artifact can only carry it in
another shape.
-/

namespace AgenticDynamics.Knowledge

open Python Json
open Context (Authority)

namespace KnowledgeRecord

/-! ### Lookups in the document -/

section Lookups

variable {r : KnowledgeRecord} {key key' : String} {d d' : Dict Json} {value : Json}

lemma get?_append : Dict.get? key (d ++ d') = (Dict.get? key d).or (Dict.get? key d') := by
  simp only [Dict.get?, List.find?_append]
  cases List.find? (fun kv => decide (kv.1 = key)) d <;> rfl

lemma get?_present {d : Dict (Option Json)} (hnodup : (d.map Prod.fst).Nodup) :
    Dict.get? key (present d) = (Dict.get? key d).join := by
  induction d with
  | nil => rfl
  | cons entry rest ih =>
    obtain ⟨k, v⟩ := entry
    obtain ⟨hnew, hnodup⟩ := List.nodup_cons.mp hnodup
    have ih := ih hnodup
    by_cases hkey : k = key
    · subst hkey
      have hrest : Dict.get? k rest = none := by
        rw [Dict.get?_eq_none]
        rintro kv hkv rfl
        exact hnew (List.mem_map.mpr ⟨kv, hkv, rfl⟩)
      cases v with
      | none =>
        rw [hrest] at ih
        simpa [present, Dict.get?] using ih
      | some value => simp [present, Dict.get?]
    · cases v with
      | none => simpa [present, Dict.get?, hkey] using ih
      | some value => simpa [present, Dict.get?, hkey] using ih

lemma get?_toDict_of_fields (h : Dict.get? key r.fields = some value) :
    Dict.get? key r.toDict = some value := by
  rw [toDict, get?_append, h]
  rfl

lemma get?_toDict_optional {value : Option Json} (hfields : Dict.get? key r.fields = none)
    (h : Dict.get? key r.optionalFields = some value) : Dict.get? key r.toDict = value := by
  have hnodup : (r.optionalFields.map Prod.fst).Nodup := by
    show List.Nodup ["energy_total_j", "energy_per_token", "region", "pattern_payload",
      "source_fact_id", "evidence_ids"]
    decide
  rw [toDict, get?_append, hfields, get?_present hnodup, h]
  rfl

lemma get?_blank (keys : List String) (d : Dict Json) :
    Dict.get? key (blank keys d) = if key ∈ keys then some (.str "") else Dict.get? key d := by
  induction keys generalizing d with
  | nil => simp [blank]
  | cons k keys ih =>
    refine (ih (Dict.set k (.str "") d)).trans ?_
    rw [Dict.get?_set]
    by_cases hkey : k = key
    · simp [hkey]
    · simp [hkey, ne_comm.mp hkey]

lemma get?_dropEmpty (keys : List String) (d : Dict Json) :
    Dict.get? key (dropEmpty keys d) =
      if key ∈ keys ∧ (lookup d key).truthy = false then none else Dict.get? key d := by
  induction keys generalizing d with
  | nil => simp [dropEmpty]
  | cons k keys ih =>
    refine (ih (if (lookup d k).truthy then d else Dict.erase k d)).trans ?_
    by_cases htruthy : (lookup d k).truthy
    · rw [if_pos htruthy]
      by_cases hkey : key = k
      · subst hkey
        simp [htruthy]
      · simp [hkey]
    · rw [if_neg htruthy]
      by_cases hkey : key = k
      · subst hkey
        have hgone : Dict.get? key (Dict.erase key d) = none := by
          rw [Dict.get?_eq_none]
          simp [Dict.erase]
        simp [hgone, htruthy]
      · have hother : Dict.get? key (Dict.erase k d) = Dict.get? key d :=
          Dict.get?_erase_of_ne d hkey
        simp [lookup, hother, hkey]

lemma get?_artifact (hblank : key ∉ blankKeys) (hsubject : key ∉ subjectKeys) :
    Dict.get? key (sortFields (artifactDoc r)) = (Dict.get? key r.toDict).map sortKeys := by
  rw [get?_sortFields, artifactDoc, get?_dropEmpty, if_neg fun h => hsubject h.1, get?_blank,
    if_neg hblank]

lemma get?_artifact_blank (hblank : key ∈ blankKeys) (hsubject : key ∉ subjectKeys) :
    Dict.get? key (sortFields (artifactDoc r)) = some (.str "") := by
  rw [get?_sortFields, artifactDoc, get?_dropEmpty, if_neg fun h => hsubject h.1, get?_blank,
    if_pos hblank]
  rfl

lemma get?_artifact_subject (hblank : key ∉ blankKeys) (hsubject : key ∈ subjectKeys) {s : String}
    (h : Dict.get? key r.toDict = some (.str s)) :
    (Dict.get? key (sortFields (artifactDoc r))).getD (.str "") = .str s := by
  have hlookup : Dict.get? key (blank blankKeys r.toDict) = some (.str s) := by
    rw [get?_blank, if_neg hblank, h]
  rw [get?_sortFields, artifactDoc, get?_dropEmpty]
  by_cases hempty : s = ""
  · simp [lookup, hlookup, hempty, hsubject, truthy]
  · simp [lookup, hlookup, hempty, hsubject, truthy]

end Lookups

/-! ### Reading the document -/

section Read

variable {key : String} {d : Dict Json} {α : Type}

lemma textField_eq {s : String} (h : Dict.get? key d = some (.str s)) :
    textField d key = .ok s := by
  simp [textField, required, h, bind, Except.bind, asText]

lemma required_eq {value : Json} (h : Dict.get? key d = some value) :
    required d key = .ok value := by
  simp [required, h]

lemma lookup_eq {value : Json} (h : Dict.get? key d = some value) : lookup d key = value := by
  simp [lookup, h]

lemma asTexts_eq (items : List String) : asTexts key (.arr (items.map .str)) = .ok items := by
  rw [asTexts]
  induction items with
  | nil => rfl
  | cons s items ih => simp [List.mapM_cons, asText, ih, bind, Except.bind, pure, Except.pure]

lemma asOptional_eq {read : Json → Except RecordError α} {encode : α → Json} (value : Option α)
    (hread : ∀ a, read (encode a) = .ok a) (hnull : ∀ a, encode a ≠ .null) :
    asOptional read (orNull (value.map encode)) = .ok value := by
  cases value with
  | none => rfl
  | some a =>
    show asOptional read (encode a) = .ok (some a)
    have hsome : asOptional read (encode a) = (read (encode a)).map some := by
      cases h : encode a with
      | null => exact absurd h (hnull a)
      | _ => rfl
    rw [hsome, hread a]
    rfl

lemma sortKeys_orNull {encode : α → Json} (value : Option α)
    (h : ∀ a, (encode a).sortKeys = encode a) :
    (orNull (value.map encode)).sortKeys = orNull (value.map encode) := by
  cases value with
  | none => rfl
  | some a => exact h a

lemma coerceAuthority_name (rt : Runtime) (a : Authority) (hupper : rt.upper a.name = a.name) :
    coerceAuthority rt (.str a.name) = .ok a := by
  simp only [coerceAuthority, Json.text, hupper]
  cases a <;> rfl

end Read

lemma fromDict_artifact (rt : Runtime) (r : KnowledgeRecord)
    (hupper : rt.upper r.authority.name = r.authority.name) :
    fromDict rt (sortFields (artifactDoc r)) =
      .ok
        { r with
          knowledgeId := ""
          contentHash := ""
          validFrom := ""
          observedAt := ""
          indexedAt := ""
          patternPayload := .plain r.patternPayload.encode.sortKeys } := by
  set d := sortFields (artifactDoc r) with hd
  have field : ∀ key value, Dict.get? key r.fields = some value → key ∉ blankKeys →
      key ∉ subjectKeys → Dict.get? key d = some value.sortKeys := by
    intro key value h hblank hsubject
    rw [hd, get?_artifact hblank hsubject, get?_toDict_of_fields h]
    rfl
  have text : ∀ key s, Dict.get? key r.fields = some (.str s) → key ∉ blankKeys →
      key ∉ subjectKeys → textField d key = .ok s := by
    intro key s h hblank hsubject
    exact textField_eq (field key _ h hblank hsubject)
  have empty : ∀ key, key ∈ blankKeys → key ∉ subjectKeys → textField d key = .ok "" := by
    intro key hblank hsubject
    exact textField_eq (get?_artifact_blank hblank hsubject)
  have subject : ∀ key s, Dict.get? key r.fields = some (.str s) → key ∉ blankKeys →
      key ∈ subjectKeys → textOrEmpty d key = .ok s := by
    intro key s h hblank hsubject
    rw [textOrEmpty, hd, get?_artifact_subject hblank hsubject (get?_toDict_of_fields h)]
    rfl
  have plain : ∀ key value, Dict.get? key r.fields = some value → key ∉ blankKeys →
      key ∉ subjectKeys → lookup d key = value.sortKeys := by
    intro key value h hblank hsubject
    exact lookup_eq (field key value h hblank hsubject)
  have extra : ∀ key value, Dict.get? key r.fields = none →
      Dict.get? key r.optionalFields = some value → key ∉ blankKeys → key ∉ subjectKeys →
        Dict.get? key d = value.map sortKeys := by
    intro key value hfields h hblank hsubject
    rw [hd, get?_artifact hblank hsubject, get?_toDict_optional hfields h]
  have texts : ∀ key (s : Option String), lookup d key = (orNull (s.map .str)).sortKeys →
      textOrNone d key = .ok s := by
    intro key s h
    rw [textOrNone, h, sortKeys_orNull s fun _ => rfl]
    exact asOptional_eq s (fun _ => rfl) fun _ => Json.noConfusion
  have floats : ∀ key (x : Option PyFloat), lookup d key = (orNull (x.map .float)).sortKeys →
      floatOrNone d key = .ok x := by
    intro key x h
    rw [floatOrNone, h, sortKeys_orNull x fun _ => rfl]
    exact asOptional_eq x (fun _ => rfl) fun _ => Json.noConfusion
  have measured : ∀ key (x : Option PyFloat), Dict.get? key r.fields = none →
      Dict.get? key r.optionalFields = some (x.map .float) → key ∉ blankKeys →
        key ∉ subjectKeys → floatOrNone d key = .ok x := by
    intro key x hfields h hblank hsubject
    refine floats key x ?_
    rw [lookup, extra key _ hfields h hblank hsubject]
    cases x <;> rfl
  have hregion : textOrNone d "region" = .ok r.region := by
    refine texts "region" r.region ?_
    rw [lookup, extra "region" _ rfl rfl (by decide) (by decide)]
    cases r.region <;> rfl
  have hpayload : lookup d "pattern_payload" = r.patternPayload.encode.sortKeys := by
    rw [lookup, extra "pattern_payload" _ rfl rfl (by decide) (by decide)]
    by_cases hnone : r.patternPayload.isNone = true
    · have hnull : r.patternPayload = .plain .null := by
        cases h : r.patternPayload with
        | typed p => simp [PatternValue.isNone, h] at hnone
        | plain value => cases value <;> simp [PatternValue.isNone, h] at hnone ⊢
      simp [hnull, PatternValue.isNone, PatternValue.encode]
    · simp [hnone]
  have hfact : textOrEmpty d "source_fact_id" = .ok r.sourceFactId := by
    rw [textOrEmpty, extra "source_fact_id" _ rfl rfl (by decide) (by decide)]
    by_cases h : r.sourceFactId = "" <;> simp [h, asText]
  have hevidence : asTexts "evidence_ids" (lookup d "evidence_ids") = .ok r.evidenceIds := by
    rw [lookup, extra "evidence_ids" _ rfl rfl (by decide) (by decide)]
    by_cases h : r.evidenceIds = []
    · simp [h, asTexts, truthy]
    · rw [if_neg h]
      simp [asTexts_eq]
  have hsymbols : asTexts "symbols" (lookup d "symbols") = .ok r.symbols := by
    rw [plain "symbols" _ rfl (by decide) (by decide), sortKeys_strings, asTexts_eq]
  have hsuccess : asOptional (asBool "test_executed_success") (lookup d "test_executed_success") =
      .ok r.testExecutedSuccess := by
    rw [plain "test_executed_success" _ rfl (by decide) (by decide),
      sortKeys_orNull r.testExecutedSuccess fun _ => rfl]
    exact asOptional_eq r.testExecutedSuccess (fun _ => rfl) fun _ => Json.noConfusion
  simp only [fromDict,
    empty "knowledge_id" (by decide) (by decide),
    text "entity_id" _ rfl (by decide) (by decide),
    text "source_uri" _ rfl (by decide) (by decide),
    text "source_type" _ rfl (by decide) (by decide),
    text "logical_locator" _ rfl (by decide) (by decide),
    text "repository_id" _ rfl (by decide) (by decide),
    text "branch" _ rfl (by decide) (by decide),
    text "worktree_id" _ rfl (by decide) (by decide),
    text "commit_sha" _ rfl (by decide) (by decide),
    empty "content_hash" (by decide) (by decide),
    text "extractor_version" _ rfl (by decide) (by decide),
    text "embedding_version" _ rfl (by decide) (by decide),
    required_eq (field "authority" _ rfl (by decide) (by decide)),
    empty "valid_from" (by decide) (by decide),
    texts "valid_to" _ (plain "valid_to" _ rfl (by decide) (by decide)),
    empty "observed_at" (by decide) (by decide),
    empty "indexed_at" (by decide) (by decide),
    text "acl_scope" _ rfl (by decide) (by decide),
    required_eq (field "contains_sensitive_data" _ rfl (by decide) (by decide)),
    text "text" _ rfl (by decide) (by decide),
    required_eq (field "token_count" _ rfl (by decide) (by decide)),
    text "language" _ rfl (by decide) (by decide),
    hsymbols,
    text "outcome_id" _ rfl (by decide) (by decide),
    hsuccess,
    text "evidence_class" _ rfl (by decide) (by decide),
    floats "confidence" _ (plain "confidence" _ rfl (by decide) (by decide)),
    floats "perturbation_strength" _ (plain "perturbation_strength" _ rfl (by decide) (by decide)),
    texts "causes" _ (plain "causes" _ rfl (by decide) (by decide)),
    texts "supersedes" _ (plain "supersedes" _ rfl (by decide) (by decide)),
    subject "subject_id" _ rfl (by decide) (by decide),
    subject "subject_status" _ rfl (by decide) (by decide),
    measured "energy_total_j" _ rfl rfl (by decide) (by decide),
    measured "energy_per_token" _ rfl rfl (by decide) (by decide),
    hregion, hpayload, hfact, hevidence, bind, Except.bind, sortKeys_str, sortKeys_bool,
    sortKeys_int, coerceAuthority_name rt _ hupper, asBool, asInt]
  rfl

end KnowledgeRecord

/-! ### The round trip -/

/-- `a == b`. -/
def PatternValue.Same : PatternValue → PatternValue → Prop
  | .typed p, .typed p' => p = p'
  | .plain v, .plain v' => v.Same v'
  | _, _                => False

/-- The record is the other one, but for the times at which it was derived and indexed. -/
def KnowledgeRecord.Restores (r' r : KnowledgeRecord) : Prop :=
  { r' with validFrom := r.validFrom, indexedAt := r.indexedAt, patternPayload := r.patternPayload } =
      r ∧
    r'.patternPayload.Same r.patternPayload

/-- What a consumer finds in the event and the artifact of a record. -/
structure RoundTrips (host : Host) (record : KnowledgeRecord)
    (operation reason sentAt readAt : String) : Prop where
  restored : ∃ r', extractRecord host (recordToEvent host record operation reason sentAt)
    (recordToArtifact host record) readAt = .ok r' ∧ r'.Restores record
  verified : ∀ worker : Worker String KnowledgeRecord, worker.hexdigest = host.sha256 →
    verifyContentHash worker (recordToArtifact host record)
      (recordToEvent host record operation reason sentAt).contentHash = true
  identified :
    let event := recordToEvent host record operation reason sentAt
    computeKnowledgeId host event.entityId event.sourceRevision event.contentHash
      record.extractorVersion = event.knowledgeId

/-- What is relied on of the standard library: `json.loads` reads what `json.dumps` wrote, the
names of the authorities are upper case, and a digest is not empty. -/
structure HostReads (host : Host) (record : KnowledgeRecord) : Prop where
  loads_dumps : host.loads (host.dumps (.obj (artifactDoc record))) =
    .ok (sortKeys (.obj (artifactDoc record)))
  upper_name : host.upper record.authority.name = record.authority.name
  digest_ne : host.sha256 (recordToArtifact host record) ≠ ""

/-- The parts give a record that can be replayed: its payload is a plain value, its time of
observation is not empty, and its entity and commit are those its identity was made of. -/
structure RecordParts.Replayable (host : Host) (parts : RecordParts) (ts sentAt : String) :
    Prop where
  payload : ∀ p, parts.extra.patternPayload ≠ some (.typed p)
  observed : parts.extra.observedAt.getD ts = "" → sentAt = ""
  identity : parts.extra.entityId.getD (parts.entity host) ++ "|" ++
      parts.extra.commitSha.getD parts.revision =
    parts.entity host ++ "|" ++ parts.revision

section RoundTrip

variable {host : Host} {parts : RecordParts} {record : KnowledgeRecord}
  {ts operation reason sentAt readAt : String}

lemma artifactDoc_identities (r : KnowledgeRecord) (contentHash knowledgeId : String) :
    artifactDoc { r with contentHash, knowledgeId } = artifactDoc r := rfl

lemma buildRecord_eq_ok (h : buildRecord host parts ts = .ok record) :
    record =
      { parts.draft host ts with
        contentHash := host.sha256 (recordToArtifact host record)
        knowledgeId :=
          computeKnowledgeId host (parts.entity host) parts.revision
            (host.sha256 (recordToArtifact host record)) record.extractorVersion } := by
  simp only [buildRecord] at h
  split_ifs at h
  cases h
  rfl

lemma extractRecord_eq (hreads : HostReads host record) (operation reason sentAt readAt : String) :
    extractRecord host (recordToEvent host record operation reason sentAt)
        (recordToArtifact host record) readAt =
      .ok
        { record with
          contentHash := host.sha256 (recordToArtifact host record)
          validFrom := sentAt
          observedAt := Python.orElse (some record.observedAt) sentAt
          indexedAt := readAt
          patternPayload := .plain record.patternPayload.encode.sortKeys } := by
  have hfrom := KnowledgeRecord.fromDict_artifact host.toRuntime record hreads.upper_name
  simp only [extractRecord, recordToArtifact, hreads.loads_dumps, sortKeys, hfrom, bind,
    Except.bind]
  rfl

lemma identity_text (a b c d : String) :
    "|".intercalate [a, b, c, d] = a ++ "|" ++ b ++ ("|" ++ c ++ "|" ++ d) := by
  show a ++ "|" ++ b ++ "|" ++ c ++ "|" ++ d = _
  simp only [String.append_assoc]

lemma identity_text_inj {a b a' b' c d : String} :
    "|".intercalate [a, b, c, d] = "|".intercalate [a', b', c, d] ↔
      a ++ "|" ++ b = a' ++ "|" ++ b' := by
  rw [identity_text, identity_text]
  exact String.append_left_inj _

def Collide (host : Host) (a b : List String) : Prop :=
  sha256 host a = sha256 host b ∧ "|".intercalate a ≠ "|".intercalate b

lemma restores_iff :
    { record with
        contentHash := record.contentHash
        validFrom := sentAt
        observedAt := Python.orElse (some record.observedAt) sentAt
        indexedAt := readAt
        patternPayload := .plain record.patternPayload.encode.sortKeys }.Restores record ↔
      (∀ p, record.patternPayload ≠ .typed p) ∧ (record.observedAt = "" → sentAt = "") := by
  have htime : Python.orElse (some record.observedAt) sentAt = record.observedAt ↔
      (record.observedAt = "" → sentAt = "") := by
    by_cases h : record.observedAt = "" <;> simp [Python.orElse, h]
  constructor
  · rintro ⟨hfields, hsame⟩
    refine ⟨?_, htime.mp (congrArg KnowledgeRecord.observedAt hfields)⟩
    intro p hp
    rw [hp] at hsame
    exact hsame
  · rintro ⟨hplain, htime'⟩
    constructor
    · rw [htime.mpr htime']
    · cases hpayload : record.patternPayload with
      | typed p => exact absurd hpayload (hplain p)
      | plain value => exact same_sortKeys value

/-- The record comes back, its artifact passes and its identity can be recomputed exactly when
the parts can be replayed. -/
theorem record_round_trips_iff (hbuild : buildRecord host parts ts = .ok record)
    (hreads : HostReads host record)
    (hcollision : ¬ Collide host
      [record.entityId, record.commitSha, record.contentHash, record.extractorVersion]
      [parts.entity host, parts.revision, record.contentHash, record.extractorVersion]) :
    RoundTrips host record operation reason sentAt readAt ↔ parts.Replayable host ts sentAt := by
  have hrecord := buildRecord_eq_ok hbuild
  have hhash : record.contentHash = host.sha256 (recordToArtifact host record) :=
    congrArg KnowledgeRecord.contentHash hrecord
  have hknowledge : record.knowledgeId =
      sha256 host [parts.entity host, parts.revision, record.contentHash,
        record.extractorVersion] := by
    rw [hhash]
    exact congrArg KnowledgeRecord.knowledgeId hrecord
  have hentity : record.entityId = parts.extra.entityId.getD (parts.entity host) :=
    congrArg KnowledgeRecord.entityId hrecord
  have hcommit : record.commitSha = parts.extra.commitSha.getD parts.revision :=
    congrArg KnowledgeRecord.commitSha hrecord
  have hobserved : record.observedAt = parts.extra.observedAt.getD ts :=
    congrArg KnowledgeRecord.observedAt hrecord
  have hpayload : record.patternPayload = parts.extra.patternPayload.getD (.plain .null) :=
    congrArg KnowledgeRecord.patternPayload hrecord
  have hplain : (∀ p, record.patternPayload ≠ .typed p) ↔
      ∀ p, parts.extra.patternPayload ≠ some (.typed p) := by
    rw [hpayload]
    cases parts.extra.patternPayload <;> simp
  have hextract := extractRecord_eq hreads operation reason sentAt readAt
  rw [← hhash] at hextract
  constructor
  · rintro ⟨⟨r', hr', hrestores⟩, -, hidentified⟩
    rw [hextract] at hr'
    cases hr'
    obtain ⟨htyped, htime⟩ := restores_iff.mp hrestores
    refine ⟨hplain.mp htyped, fun h => htime (hobserved.trans h), ?_⟩
    rw [← hentity, ← hcommit]
    by_contra hne
    refine hcollision ⟨?_, fun htext => hne (identity_text_inj.mp htext)⟩
    rw [← hknowledge, hhash]
    exact hidentified
  · rintro ⟨htyped, htime, hidentity⟩
    refine ⟨⟨_, hextract, restores_iff.mpr ⟨hplain.mpr htyped, ?_⟩⟩, ?_, ?_⟩
    · rw [hobserved]
      exact htime
    · intro worker hworker
      simp [verifyContentHash, recordToEvent, hreads.digest_ne, hworker]
    · show sha256 host [record.entityId, record.commitSha,
        host.sha256 (recordToArtifact host record), record.extractorVersion] = record.knowledgeId
      rw [hknowledge, ← hhash, sha256, sha256]
      rw [← hentity, ← hcommit] at hidentity
      rw [identity_text_inj.mpr hidentity]

/-! ### A review -/

def reviewEntity : String := "322a3f9c21bd78d8837a457ce993ddf53d9b46d5ca7ac0d87ca00bd4007db020"

/-- The artifact of the review, for the commit its record names. -/
def reviewArtifact (commitSha : String) : String :=
  "\x7b\"acl_scope\": \"public\", \"authority\": \"ADVISORY\", \"branch\": \"\", " ++
  "\"causes\": null, \"commit_sha\": \"" ++ commitSha ++ "\", \"confidence\": null, " ++
  "\"contains_sensitive_data\": false, \"content_hash\": \"\", \"embedding_version\": \"\", " ++
  "\"entity_id\": \"" ++ reviewEntity ++ "\", \"evidence_class\": \"[H]\", " ++
  "\"extractor_version\": \"review/v1\", \"indexed_at\": \"\", \"knowledge_id\": \"\", " ++
  "\"language\": \"\", \"logical_locator\": \"s1\", \"observed_at\": \"\", " ++
  "\"outcome_id\": \"\", \"perturbation_strength\": null, " ++
  "\"repository_id\": \"agentic-dynamics\", \"source_type\": \"review\", " ++
  "\"source_uri\": \"experiments/results/reviews/s1.json\", \"supersedes\": null, " ++
  "\"symbols\": [], \"test_executed_success\": null, \"text\": \"approved\", " ++
  "\"token_count\": 1, \"valid_from\": \"\", \"valid_to\": null, \"worktree_id\": \"\"\x7d"

def keptHash : String := "b0983ca255a7ce27b50af0c177b31d80cbb8072d171652972d1f9f76a75e12c1"

def blankHash : String := "2e4a8f7e36738bb236c758302e081f3d51e3a19ae144ebd9c40044ad531f8ae6"

def reviewDigests : Dict String :=
  [("agentic-dynamics|experiments/results/reviews/s1.json|s1", reviewEntity),
    (reviewEntity ++ "|review/unrevisioned|" ++ keptHash ++ "|review/v1",
      "9103c1e57d0021b2452d52c367a408a052f75e43211f782782dc8731881c8325"),
    (reviewEntity ++ "|review/unrevisioned|" ++ blankHash ++ "|review/v1",
      "179a4535cb3241b5439d4b439d41b58ea83c1b7144452703958841b0b4411821"),
    (reviewEntity ++ "||" ++ blankHash ++ "|review/v1",
      "dc29bd61a882494d2dd20037965e0f17ec5fdcf276cc6d8240f2dd2a0f0820df"),
    (reviewArtifact "review/unrevisioned", keptHash), (reviewArtifact "", blankHash)]

/-- The record of the review, for the commit it names. -/
def reviewDraft (commitSha : String) : KnowledgeRecord where
  knowledgeId := ""
  entityId := reviewEntity
  sourceUri := "experiments/results/reviews/s1.json"
  sourceType := "review"
  logicalLocator := "s1"
  repositoryId := "agentic-dynamics"
  branch := ""
  worktreeId := ""
  commitSha := commitSha
  contentHash := ""
  extractorVersion := "review/v1"
  embeddingVersion := ""
  authority := .advisory
  validFrom := "2026-08-01T00:00:00+00:00"
  validTo := none
  observedAt := "2026-08-01T00:00:00+00:00"
  indexedAt := "2026-08-01T00:00:00+00:00"
  aclScope := "public"
  containsSensitiveData := false
  text := "approved"
  tokenCount := 1
  language := ""
  symbols := []
  outcomeId := ""
  testExecutedSuccess := none
  evidenceClass := "[H]"

def reviewHost (commitSha : String) : Host where
  loads _ := .ok (sortKeys (.obj (artifactDoc (reviewDraft commitSha))))
  repr _ := ""
  upper := String.toUpper
  lower := String.toLower
  sha256 text := (Dict.get? text reviewDigests).getD ""
  dumps _ := reviewArtifact commitSha
  fromisoformat _ := none

/-- The parts of the review; `build_review_record` gives an empty `commit_sha`. -/
def reviewParts (commitSha : Option String) : RecordParts where
  sourceType := "review"
  sourceUri := "experiments/results/reviews/s1.json"
  logicalLocator := "s1"
  repositoryId := "agentic-dynamics"
  revision := "review/unrevisioned"
  authority := .advisory
  evidenceClass := "[H]"
  text := "approved"
  extra := { commitSha := commitSha, extractorVersion := some "review/v1" }

/-- What `build_record` makes of the review. -/
def reviewRecord (commitSha contentHash knowledgeId : String) : KnowledgeRecord :=
  { reviewDraft commitSha with contentHash, knowledgeId }

lemma review_computed :
    ((reviewHost "").sha256 "agentic-dynamics|experiments/results/reviews/s1.json|s1" =
        reviewEntity ∧ (max 1 (words "approved").length : ℤ) = 1) ∧
      ((reviewHost "review/unrevisioned").sha256 (recordToArtifact
          (reviewHost "review/unrevisioned") (reviewDraft "review/unrevisioned")) = keptHash ∧
        (reviewHost "").sha256 (recordToArtifact (reviewHost "") (reviewDraft "")) = blankHash) ∧
      (computeKnowledgeId (reviewHost "review/unrevisioned") reviewEntity "review/unrevisioned"
          keptHash "review/v1" =
            "9103c1e57d0021b2452d52c367a408a052f75e43211f782782dc8731881c8325" ∧
        computeKnowledgeId (reviewHost "") reviewEntity "review/unrevisioned" blankHash
          "review/v1" = "179a4535cb3241b5439d4b439d41b58ea83c1b7144452703958841b0b4411821" ∧
        computeKnowledgeId (reviewHost "") reviewEntity "" blankHash "review/v1" ≠
          "179a4535cb3241b5439d4b439d41b58ea83c1b7144452703958841b0b4411821") ∧
      String.toUpper Authority.advisory.name = Authority.advisory.name := by
  decide +kernel

lemma review_draft (host : Host) (hdigest : host.sha256 = (reviewHost "").sha256)
    (commitSha : Option String) :
    (reviewParts commitSha).draft host "2026-08-01T00:00:00+00:00" =
      reviewDraft (commitSha.getD "review/unrevisioned") := by
  obtain ⟨hentity, hwords⟩ := review_computed.1
  have hentity : (reviewParts commitSha).entity host = reviewEntity := by
    rw [← hentity, ← hdigest]
    rfl
  rw [RecordParts.draft, hentity]
  simp only [reviewParts, reviewDraft]
  rw [hwords]
  rfl

lemma buildRecord_review (commitSha : Option String) {host : Host} {contentHash knowledgeId : String}
    (hhost : host = reviewHost (commitSha.getD "review/unrevisioned"))
    (hhash : host.sha256 (recordToArtifact host
      (reviewDraft (commitSha.getD "review/unrevisioned"))) = contentHash)
    (hknowledge : computeKnowledgeId host reviewEntity "review/unrevisioned" contentHash
      "review/v1" = knowledgeId) :
    buildRecord host (reviewParts commitSha) "2026-08-01T00:00:00+00:00" =
      .ok (reviewRecord (commitSha.getD "review/unrevisioned") contentHash knowledgeId) := by
  have hdraft := review_draft host (by rw [hhost]; rfl) commitSha
  have hentity : (reviewParts commitSha).entity host = reviewEntity :=
    congrArg KnowledgeRecord.entityId hdraft
  have hid : computeKnowledgeId host reviewEntity (reviewParts commitSha).revision contentHash
      (reviewDraft (commitSha.getD "review/unrevisioned")).extractorVersion = knowledgeId :=
    hknowledge
  rw [buildRecord, if_neg (by simp [reviewParts])]
  simp only [hdraft, hentity, hhash, hid]
  rfl

lemma review_digest_kept : (reviewHost "review/unrevisioned").sha256
    (recordToArtifact (reviewHost "review/unrevisioned") (reviewDraft "review/unrevisioned")) =
      keptHash :=
  review_computed.2.1.1

lemma review_digest_blank :
    (reviewHost "").sha256 (recordToArtifact (reviewHost "") (reviewDraft "")) = blankHash :=
  review_computed.2.1.2

/-- A record that names the revision of its identity comes back. -/
theorem record_round_trips_revisioned :
    RoundTrips (reviewHost "review/unrevisioned")
      (reviewRecord "review/unrevisioned" keptHash
        "9103c1e57d0021b2452d52c367a408a052f75e43211f782782dc8731881c8325") "upsert" ""
      "2026-08-01T00:00:01+00:00" "2026-08-01T00:00:02+00:00" := by
  have hbuild : buildRecord (reviewHost "review/unrevisioned") (reviewParts none)
      "2026-08-01T00:00:00+00:00" =
        .ok (reviewRecord "review/unrevisioned" keptHash
          "9103c1e57d0021b2452d52c367a408a052f75e43211f782782dc8731881c8325") :=
    buildRecord_review none rfl review_digest_kept review_computed.2.2.1.1
  have hkept : keptHash ≠ "" := by decide
  have hdigest : (reviewHost "review/unrevisioned").sha256 (recordToArtifact _ _) ≠ "" :=
    review_digest_kept.trans_ne hkept
  refine (record_round_trips_iff hbuild ⟨rfl, review_computed.2.2.2, hdigest⟩ ?_).mpr ?_
  · rintro ⟨-, hne⟩
    exact hne rfl
  · exact ⟨fun p => by simp [reviewParts], fun h => absurd h (by decide), rfl⟩

/-- The identity of a review cannot be recomputed from its event. -/
theorem review_not_replayed :
    ∃ record, buildRecord (reviewHost "") (reviewParts (some "")) "2026-08-01T00:00:00+00:00" =
        .ok record ∧ HostReads (reviewHost "") record ∧
      ¬ RoundTrips (reviewHost "") record "upsert" "" "2026-08-01T00:00:01+00:00"
        "2026-08-01T00:00:02+00:00" := by
  have hbuild : buildRecord (reviewHost "") (reviewParts (some "")) "2026-08-01T00:00:00+00:00" =
      .ok (reviewRecord "" blankHash
        "179a4535cb3241b5439d4b439d41b58ea83c1b7144452703958841b0b4411821") :=
    buildRecord_review (some "") rfl review_digest_blank review_computed.2.2.1.2.1
  have hblank : blankHash ≠ "" := by decide
  have hdigest : (reviewHost "").sha256 (recordToArtifact _ _) ≠ "" :=
    review_digest_blank.trans_ne hblank
  refine ⟨_, hbuild, ⟨rfl, review_computed.2.2.2, hdigest⟩, ?_⟩
  rintro ⟨-, -, hidentified⟩
  have hhash : (reviewHost "").sha256 (recordToArtifact (reviewHost "") (reviewRecord "" blankHash
      "179a4535cb3241b5439d4b439d41b58ea83c1b7144452703958841b0b4411821")) = blankHash :=
    review_digest_blank
  simp only [recordToEvent, hhash] at hidentified
  exact absurd hidentified review_computed.2.2.1.2.2

end RoundTrip

end AgenticDynamics.Knowledge
