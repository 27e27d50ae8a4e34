import AgenticDynamics.Library.JsonSchema

/-!
# The publication receipt

The contract of a receipt is written twice, as a JSON schema and as a list of checks. Both encode
the same required members; the schema asks for more of what the checks leave alone, and takes a
whole number for an integer however it is written.
-/

namespace AgenticDynamics.Control

open Python JsonSchema

/-- `SCHEMA_ID`. -/
def publicationSchemaId : String := "publication/v1"

def publicationProjections : List String := ["chroma", "neo4j", "registry"]

def receiptRequiredKeys : List String :=
  ["schema", "repo_sha", "data_manifest_sha256", "data_js_sha256", "sessions_total",
    "generated_at", "source_event_watermarks"]

/-! ### The schema -/

def receiptOptionalTypes : List (String × JsonType) :=
  [("projection_lag", .object), ("projection_policy", .object), ("html_consistency", .object),
    ("hosts", .array), ("operator", .string), ("run_id", .string), ("dry_run", .boolean)]

def watermarksSchema : List Keyword :=
  [.type [.object], .required publicationProjections,
    .properties (publicationProjections.map fun p => (p, [.type [.string, .null]])),
    .additionalProperties publicationProjections [.type [.string, .null]]]

def publicationSchema : List Keyword :=
  [.type [.object], .required receiptRequiredKeys,
    .properties ([
      ("schema", [.const publicationSchemaId]),
      ("repo_sha", [.type [.string], .minLength 7]),
      ("data_manifest_sha256", [.type [.string]]),
      ("data_js_sha256", [.type [.string], .minLength 64, .maxLength 64]),
      ("sessions_total", [.type [.integer, .null], .minimum 0]),
      ("generated_at", [.type [.string], .minLength 10]),
      ("source_event_watermarks", watermarksSchema)] ++
      receiptOptionalTypes.map fun optional => (optional.1, [.type [optional.2]]))]

/-! ### The checks -/

/-- `isinstance(value, str)` and a condition on its length. -/
def textWhere (p : ℕ → Bool) : Json → Bool
  | .str s => p s.length
  | _      => false

def isCount : Json → Bool
  | .null  => true
  | .int _ => true
  | _      => false

def isMark : Json → Bool
  | .null  => true
  | .str _ => true
  | _      => false

def watermarkProblems : Json → List String
  | .obj marks => publicationProjections.filterMap fun projection =>
    match Dict.get? projection marks with
    | none       => some ("source_event_watermarks missing projection: " ++ projection)
    | some value =>
      if isMark value then none
      else some ("source_event_watermarks." ++ projection ++ " must be a string or null")
  | _          => ["source_event_watermarks must be an object"]

def validateReceipt (host : Host) : Json → List String
  | .obj receipt =>
    let value (key : String) := (Dict.get? key receipt).getD .null
    (receiptRequiredKeys.filter fun key => (Dict.get? key receipt).isNone).map
        ("missing required key: " ++ ·) ++
    (match value "schema" with
      | .str s => if s = publicationSchemaId then [] else
          ["schema must be " ++ host.quote publicationSchemaId ++ ", got " ++ host.quote s]
      | v      =>
          ["schema must be " ++ host.quote publicationSchemaId ++ ", got " ++ host.repr v]) ++
    (if textWhere (7 ≤ ·) (value "repo_sha") then []
      else ["repo_sha must be a sha string of at least 7 characters"]) ++
    (if textWhere (· = 64) (value "data_js_sha256") then []
      else ["data_js_sha256 must be a 64-character sha256 hex digest"]) ++
    (if isCount (value "sessions_total") then []
      else ["sessions_total must be an integer or null (never a string)"]) ++
    (if textWhere (10 ≤ ·) (value "generated_at") then []
      else ["generated_at must be an ISO-8601 timestamp string"]) ++
    watermarkProblems (value "source_event_watermarks")
  | _            => ["receipt is not an object"]

/-! ### What each of them asks -/

structure SharedReceipt (r : Dict Json) : Prop where
  schema : Dict.get? "schema" r = some (.str publicationSchemaId)
  repoSha : ∃ s, Dict.get? "repo_sha" r = some (.str s) ∧ 7 ≤ s.length
  manifest : (Dict.get? "data_manifest_sha256" r).isSome
  jsSha : ∃ s, Dict.get? "data_js_sha256" r = some (.str s) ∧ s.length = 64
  sessions : (Dict.get? "sessions_total" r).isSome
  generated : ∃ s, Dict.get? "generated_at" r = some (.str s) ∧ 10 ≤ s.length
  watermarks : ∃ marks, Dict.get? "source_event_watermarks" r = some (.obj marks) ∧
    ∀ p ∈ publicationProjections, ∃ v, Dict.get? p marks = some v ∧ isMark v

/-- What the schema alone asks of the members besides `sessions_total`. -/
structure StrictReceipt (r : Dict Json) : Prop where
  manifest : ∀ v, Dict.get? "data_manifest_sha256" r = some v → ∃ s, v = .str s
  watermarks : ∀ marks, Dict.get? "source_event_watermarks" r = some (.obj marks) →
    ∀ kv ∈ marks, kv.1 ∉ publicationProjections → isMark kv.2
  optional : ∀ optional ∈ receiptOptionalTypes, ∀ v, Dict.get? optional.1 r = some v →
    optional.2.Of v

/-- A receipt on which the two encodings agree. -/
def ReceiptAgreed (r : Dict Json) : Prop :=
  SharedReceipt r →
    (∀ n, Dict.get? "sessions_total" r = some (.int n) → 0 ≤ n ∧ StrictReceipt r) ∧
    (Dict.get? "sessions_total" r = some .null → StrictReceipt r) ∧
    ∀ n : ℤ, 0 ≤ n → Dict.get? "sessions_total" r = some (.float (.finite n)) → ¬ StrictReceipt r

variable {host : Host} {r : Dict Json} {v : Json}

lemma textWhere_getD {p : ℕ → Bool} {o : Option Json} :
    textWhere p (o.getD .null) = true ↔ ∃ s, o = some (.str s) ∧ p s.length = true := by
  cases o with
  | none   => simp [textWhere]
  | some v => cases v <;> simp [textWhere]

lemma watermarkProblems_eq_nil {o : Option Json} :
    watermarkProblems (o.getD .null) = [] ↔ ∃ marks, o = some (.obj marks) ∧
      ∀ p ∈ publicationProjections, ∃ v, Dict.get? p marks = some v ∧ isMark v = true := by
  cases o with
  | none   => simp [watermarkProblems]
  | some v =>
    cases v with
    | obj marks =>
      simp only [Option.getD_some, watermarkProblems, List.filterMap_eq_nil_iff, Option.some.injEq,
        Json.obj.injEq, exists_eq_left']
      refine forall₂_congr fun p _ => ?_
      cases Dict.get? p marks with
      | none   => simp
      | some v => simp
    | _ => simp [watermarkProblems]

lemma validateReceipt_eq_nil : validateReceipt host (.obj r) = [] ↔
    SharedReceipt r ∧ ∃ v, Dict.get? "sessions_total" r = some v ∧ isCount v = true := by
  have hschema : (match (Dict.get? "schema" r).getD .null with
      | .str s => if s = publicationSchemaId then [] else
          ["schema must be " ++ host.quote publicationSchemaId ++ ", got " ++ host.quote s]
      | v      =>
          ["schema must be " ++ host.quote publicationSchemaId ++ ", got " ++ host.repr v]) = [] ↔
      Dict.get? "schema" r = some (.str publicationSchemaId) := by
    cases Dict.get? "schema" r with
    | none   => simp
    | some v => cases v <;> simp
  simp only [validateReceipt, List.append_eq_nil_iff, hschema, watermarkProblems_eq_nil,
    List.map_eq_nil_iff, List.filter_eq_nil_iff, ite_eq_left_iff, Bool.not_eq_true,
    reduceCtorEq, imp_false, not_not, Bool.not_eq_false, textWhere_getD, decide_eq_true_eq]
  constructor
  · rintro ⟨⟨⟨⟨⟨⟨hrequired, hschema⟩, hrepo⟩, hjs⟩, hcount⟩, hgenerated⟩, hmarks⟩
    have hthere (key : String) (hkey : key ∈ receiptRequiredKeys) : (Dict.get? key r).isSome := by
      simpa using hrequired key hkey
    have hsessions := hthere "sessions_total" (by decide)
    obtain ⟨v, hv⟩ := Option.isSome_iff_exists.mp hsessions
    rw [hv, Option.getD_some] at hcount
    exact ⟨⟨hschema, hrepo, hthere _ (by decide), hjs, hsessions, hgenerated, hmarks⟩, v, hv, hcount⟩
  · rintro ⟨h, v, hv, hcount⟩
    refine ⟨⟨⟨⟨⟨⟨?_, h.schema⟩, h.repoSha⟩, h.jsSha⟩, ?_⟩, h.generated⟩, h.watermarks⟩
    · obtain ⟨s, hs, -⟩ := h.repoSha
      obtain ⟨t, ht, -⟩ := h.jsSha
      obtain ⟨u, hu, -⟩ := h.generated
      obtain ⟨marks, hmarks, -⟩ := h.watermarks
      have hmanifest := h.manifest
      simp [receiptRequiredKeys, h.schema, hs, ht, hu, hmarks, hv, hmanifest]
    · rw [hv]
      exact hcount

lemma of_mark_iff : (∃ t ∈ [JsonType.string, .null], t.Of v) ↔ isMark v = true := by
  cases v <;> simp [JsonType.Of, isMark]

lemma satisfies_watermarks {marks : Dict Json} : Satisfies watermarksSchema (.obj marks) ↔
    (∀ p ∈ publicationProjections, ∃ v, Dict.get? p marks = some v ∧ isMark v = true) ∧
      ∀ kv ∈ marks, kv.1 ∉ publicationProjections → isMark kv.2 = true := by
  have hmembers : MembersHold (publicationProjections.map fun p => (p, [.type [.string, .null]]))
      marks ↔ ∀ p ∈ publicationProjections, ∀ v, Dict.get? p marks = some v → isMark v = true := by
    simp only [publicationProjections, List.map_cons, List.map_nil, membersHold_cons,
      membersHold_nil, satisfies_cons, satisfies_nil, holds_type, of_mark_iff, and_true,
      List.forall_mem_cons, List.not_mem_nil, false_implies, implies_true]
  simp only [watermarksSchema, satisfies_cons, satisfies_nil, holds_required, holds_properties,
    holds_additionalProperties, holds_type, of_mark_iff, hmembers, and_true]
  constructor
  · rintro ⟨-, hthere, hmark, hmore⟩
    refine ⟨fun p hp => ?_, hmore⟩
    obtain ⟨v, hv⟩ := Option.isSome_iff_exists.mp (hthere p hp)
    exact ⟨v, hv, hmark p hp v hv⟩
  · rintro ⟨hmark, hmore⟩
    refine ⟨⟨.object, by simp, trivial⟩, fun p hp => ?_, fun p hp v hv => ?_, hmore⟩
    · obtain ⟨v, hv, -⟩ := hmark p hp
      rw [hv]
      rfl
    · obtain ⟨v', hv', hmark'⟩ := hmark p hp
      rw [hv] at hv'
      exact Option.some.inj hv' ▸ hmark'

lemma satisfies_const {text : String} : Satisfies [.const text] v ↔ v = .str text := by simp

lemma satisfies_type {t : JsonType} : Satisfies [.type [t]] v ↔ t.Of v := by simp

lemma of_watermarks (h : Satisfies watermarksSchema v) : ∃ marks, v = .obj marks := by
  rw [watermarksSchema, satisfies_cons, holds_type] at h
  obtain ⟨t, ht, hof⟩ := h.1
  rw [List.mem_singleton.mp ht] at hof
  exact of_object_iff.mp hof

lemma satisfies_minLength {n : ℕ} : Satisfies [.type [.string], .minLength n] v ↔
    ∃ s, v = .str s ∧ n ≤ s.length := by
  cases v <;> simp [JsonType.Of]

lemma satisfies_length {n : ℕ} : Satisfies [.type [.string], .minLength n, .maxLength n] v ↔
    ∃ s, v = .str s ∧ s.length = n := by
  cases v <;> simp [JsonType.Of]
  omega

lemma satisfies_total : Satisfies [.type [.integer, .null], .minimum 0] v ↔
    v = .null ∨ ∃ n : ℤ, 0 ≤ n ∧ (v = .int n ∨ v = .float (.finite n)) := by
  cases v with
  | float x =>
    cases x with
    | finite q =>
      simp only [satisfies_cons, satisfies_nil, holds_type, holds_minimum, AtLeast, and_true,
        List.mem_cons, List.not_mem_nil, or_false, exists_eq_or_imp, exists_eq_left, reduceCtorEq,
        false_or, Json.float.injEq, PyFloat.finite.injEq, JsonType.Of]
      constructor
      · rintro ⟨⟨n, rfl⟩, hn⟩
        exact ⟨n, by exact_mod_cast hn, rfl⟩
      · rintro ⟨n, hn, rfl⟩
        exact ⟨⟨n, rfl⟩, by exact_mod_cast hn⟩
    | inf b => simp [JsonType.Of]
    | nan   => simp [JsonType.Of]
  | _ => simp [JsonType.Of, AtLeast]

lemma satisfies_publication : Satisfies publicationSchema (.obj r) ↔
    SharedReceipt r ∧ StrictReceipt r ∧ ∃ v, Dict.get? "sessions_total" r = some v ∧
      (v = .null ∨ ∃ n : ℤ, 0 ≤ n ∧ (v = .int n ∨ v = .float (.finite n))) := by
  rw [publicationSchema, satisfies_cons, satisfies_cons, satisfies_cons, holds_required,
    holds_properties, membersHold_iff]
  simp only [List.forall_mem_append, List.forall_mem_map, List.forall_mem_cons, List.not_mem_nil,
    false_implies, implies_true, and_true, satisfies_const, satisfies_minLength, satisfies_length,
    satisfies_total, satisfies_type, satisfies_nil]
  constructor
  · rintro ⟨-, hrequired, ⟨hschema, hrepo, hmanifest, hjs, htotal, hgenerated, hmarks⟩, hoptional⟩
    have hthere (key : String) (hkey : key ∈ receiptRequiredKeys) :
        ∃ v, Dict.get? key r = some v := Option.isSome_iff_exists.mp (hrequired key hkey)
    obtain ⟨_, hv⟩ := hthere "schema" (by decide)
    obtain rfl := hschema _ hv
    obtain ⟨_, hrepoSha⟩ := hthere "repo_sha" (by decide)
    obtain ⟨repoSha, rfl, hrepo⟩ := hrepo _ hrepoSha
    obtain ⟨_, hjsSha⟩ := hthere "data_js_sha256" (by decide)
    obtain ⟨jsSha, rfl, hjs⟩ := hjs _ hjsSha
    obtain ⟨_, hgen⟩ := hthere "generated_at" (by decide)
    obtain ⟨generated, rfl, hgenerated⟩ := hgenerated _ hgen
    obtain ⟨total, hsessions⟩ := hthere "sessions_total" (by decide)
    obtain ⟨_, hwatermarks⟩ := hthere "source_event_watermarks" (by decide)
    obtain ⟨marks, rfl⟩ := of_watermarks (hmarks _ hwatermarks)
    obtain ⟨hprojections, hmore⟩ := satisfies_watermarks.mp (hmarks _ hwatermarks)
    refine ⟨⟨hv, ⟨repoSha, hrepoSha, hrepo⟩, hrequired _ (by decide), ⟨jsSha, hjsSha, hjs⟩,
      hrequired _ (by decide), ⟨generated, hgen, hgenerated⟩, ⟨marks, hwatermarks, hprojections⟩⟩,
      ⟨fun v hv => of_string_iff.mp (hmanifest v hv), fun marks' hmarks' => ?_, hoptional⟩,
      total, hsessions, htotal _ hsessions⟩
    rw [hwatermarks] at hmarks'
    cases hmarks'
    exact hmore
  · rintro ⟨h, hstrict, total, hsessions, htotal⟩
    obtain ⟨repoSha, hrepoSha, hrepo⟩ := h.repoSha
    obtain ⟨jsSha, hjsSha, hjs⟩ := h.jsSha
    obtain ⟨generated, hgen, hgenerated⟩ := h.generated
    obtain ⟨marks, hwatermarks, hprojections⟩ := h.watermarks
    have hmanifest := h.manifest
    refine ⟨holds_type.mpr ⟨.object, by simp, trivial⟩, ?_, ⟨fun v hv => ?_, fun v hv => ?_,
      fun v hv => of_string_iff.mpr (hstrict.manifest v hv), fun v hv => ?_, fun v hv => ?_,
      fun v hv => ?_, fun v hv => ?_⟩, hstrict.optional⟩
    · simp [receiptRequiredKeys, h.schema, hrepoSha, hjsSha, hgen, hwatermarks, hsessions, hmanifest]
    · rw [h.schema] at hv
      exact (Option.some.inj hv).symm
    · rw [hrepoSha] at hv
      exact ⟨repoSha, (Option.some.inj hv).symm, hrepo⟩
    · rw [hjsSha] at hv
      exact ⟨jsSha, (Option.some.inj hv).symm, hjs⟩
    · rw [hsessions] at hv
      exact Option.some.inj hv ▸ htotal
    · rw [hgen] at hv
      exact ⟨generated, (Option.some.inj hv).symm, hgenerated⟩
    · rw [hwatermarks] at hv
      rw [← Option.some.inj hv]
      exact satisfies_watermarks.mpr ⟨hprojections, hstrict.watermarks marks hwatermarks⟩

/-- The two encodings agree on a receipt exactly if: where it passes what both of them ask, its total
is null or not negative and what the schema alone asks holds too, or its total is a whole number
written as a float and something of this fails, or its total is none of these. -/
theorem receipt_encodings_agree_iff (host : Host) (r : Dict Json) :
    (validateReceipt host (.obj r) = [] ↔ Satisfies publicationSchema (.obj r)) ↔
      ReceiptAgreed r := by
  rw [validateReceipt_eq_nil, satisfies_publication, ReceiptAgreed]
  constructor
  · intro h hshared
    refine ⟨fun n hn => ?_, fun hnull => ?_, fun n hn hfloat hstrict => ?_⟩
    · obtain ⟨-, hstrict, v, hv, htotal⟩ := h.mp ⟨hshared, _, hn, rfl⟩
      rw [hn] at hv
      cases hv
      refine ⟨?_, hstrict⟩
      simpa using htotal
    · exact (h.mp ⟨hshared, _, hnull, rfl⟩).2.1
    · obtain ⟨-, v, hv, hcount⟩ := h.mpr ⟨hshared, hstrict, _, hfloat, Or.inr ⟨n, hn, Or.inr rfl⟩⟩
      rw [hfloat] at hv
      cases hv
      cases hcount
  · intro h
    constructor
    · rintro ⟨hshared, v, hv, hcount⟩
      obtain ⟨hint, hnull, -⟩ := h hshared
      cases v with
      | null  => exact ⟨hshared, hnull hv, _, hv, Or.inl rfl⟩
      | int n =>
        obtain ⟨hn, hstrict⟩ := hint n hv
        exact ⟨hshared, hstrict, _, hv, Or.inr ⟨n, hn, Or.inl rfl⟩⟩
      | _     => cases hcount
    · rintro ⟨hshared, hstrict, v, hv, rfl | ⟨n, hn, rfl | rfl⟩⟩
      · exact ⟨hshared, _, hv, rfl⟩
      · exact ⟨hshared, _, hv, rfl⟩
      · exact absurd hstrict ((h hshared).2.2 n hn hv)

def negativeReceipt : Dict Json :=
  [("schema", .str "publication/v1"), ("repo_sha", .str "0123abc"),
    ("data_manifest_sha256", .str "0123abc"),
    ("data_js_sha256",
      .str "0123456789abcdef0123456789abcdef0123456789abcdef0123456789abcdef"),
    ("sessions_total", .int (-1)), ("generated_at", .str "2026-01-01T00:00:00Z"),
    ("source_event_watermarks", .obj [("chroma", .null), ("neo4j", .null), ("registry", .null)])]

/-- The checks pass it, and the schema does not. -/
theorem negative_total_only_checked : ¬ ∀ (host : Host) (r : Dict Json),
    validateReceipt host (.obj r) = [] ↔ Satisfies publicationSchema (.obj r) := by
  intro h
  let host : Host := {
    loads := fun _ => .ok .null
    repr := fun _ => ""
    upper := id
    lower := id
    sha256 := id
    dumps := fun _ => ""
    fromisoformat := fun _ => none }
  obtain ⟨-, -, v, hv, htotal⟩ := satisfies_publication.mp ((h host negativeReceipt).mp (by decide))
  cases hv
  simp at htotal

end AgenticDynamics.Control
