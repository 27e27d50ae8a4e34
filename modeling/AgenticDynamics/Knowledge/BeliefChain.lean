import AgenticDynamics.Library.Runs
import AgenticDynamics.Knowledge.RecordRoundTrip
import AgenticDynamics.Knowledge.Beliefs

/-!
# Chains of belief versions

The new versions of a call are written to the artifact directory, and the next call finds them in
the index if they stand before every other version of their beliefs. The index goes by the time of
completion of the runs, so it finds them in exactly the runs whose calls come in that order.
-/

namespace AgenticDynamics.Knowledge.Beliefs

open Python Json StableSort Runs
open KnowledgeRecord

/-! ### Calls whose versions are written -/

section Writing

variable (host : Host) (repositoryId : String)

/-- The new versions that a call returns; a call that raises returns none. -/
def applied (dir : ArtifactDir) (call : VerdictCall) : List Update :=
  (applyWaveVerdict host repositoryId call dir).toOption.elim [] BeliefUpdateResult.updates

def ArtifactDir.write (dir : ArtifactDir) (u : Update) : ArtifactDir where
  files := Dict.set u.record.knowledgeId (some (recordToArtifact host u.record)) dir.files
  nodup := Dict.nodup_set dir.nodup

def land (dir : ArtifactDir) (call : VerdictCall) : ArtifactDir :=
  (applied host repositoryId dir call).foldl (ArtifactDir.write host) dir

/-- The version of a belief that the index has. -/
def current (dir : ArtifactDir) (belief : String) : Option Version :=
  Dict.get? belief (latestVersions host repositoryId dir)

def Update.version (u : Update) : Version := (u.record.knowledgeId, sortFields u.body.toDict)

@[simp] lemma Update.version_fst (u : Update) : u.version.1 = u.record.knowledgeId := by
  rw [Update.version]

@[simp] lemma Update.version_snd (u : Update) : u.version.2 = sortFields u.body.toDict := by
  rw [Update.version]

/-- The decoder reads what the encoder wrote for a new version. -/
structure ReadsBack (u : Update) : Prop where
  artifact : host.loads (recordToArtifact host u.record) =
    .ok (sortKeys (.obj (artifactDoc u.record)))
  text : host.loads u.record.text = .ok (sortKeys (.obj u.body.toDict))

/-! ### The property -/

/-- After a call the index has the new version of each belief that was updated, and of every other
belief the version that it had. -/
structure Kept (dir : ArtifactDir) (call : VerdictCall) : Prop where
  updated : ∀ u ∈ applied host repositoryId dir call,
    current host repositoryId (land host repositoryId dir call) (locator host u.current) =
      some u.version
  others : ∀ belief, (∀ u ∈ applied host repositoryId dir call, locator host u.current ≠ belief) →
    current host repositoryId (land host repositoryId dir call) belief =
      current host repositoryId dir belief

def Signal.field : Signal → String
  | confirm    => "n_confirmations"
  | disconfirm => "n_disconfirmations"

/-- How many signals a version counts; none stands for a belief that has no version. -/
def countOf (signal : Signal) (v : Option Version) : ℕ :=
  v.elim 0 fun v => (countValue host v.2 signal.field).toOption.getD 0

/-- How often a belief was updated with a signal. -/
def updatesWith (signal : Signal) (belief : String) : ArtifactDir → List VerdictCall → ℕ
  | _,   []            => 0
  | dir, call :: calls =>
    (applied host repositoryId dir call).countP
        (fun u => locator host u.current = belief ∧ u.signal = signal) +
      updatesWith signal belief (land host repositoryId dir call) calls

/-- No update of a run is lost: after each call the index has the new versions, and what it has
counts the outcomes that were counted at the start and the updates since. -/
structure NoUpdateLost (dir : ArtifactDir) (calls : List VerdictCall) : Prop where
  kept : Along (land host repositoryId) (Kept host repositoryId) dir calls
  counts : ∀ before, before <+: calls → ∀ belief signal,
    countOf host signal (current host repositoryId (before.foldl (land host repositoryId) dir) belief) =
      countOf host signal (current host repositoryId dir belief) +
        updatesWith host repositoryId signal belief dir before

/-! ### The condition -/

/-- When a version that a call derives was last updated: the completion of the run, or the clock. -/
def VerdictCall.stamp (call : VerdictCall) (v : Version) : String :=
  strip (Python.orElse call.observedAt (call.clock v.1).1)

def newIds (dir : ArtifactDir) (call : VerdictCall) : List String :=
  (applied host repositoryId dir call).map fun u => u.record.knowledgeId

/-- Each new version is later than every version of its belief that stays. Besides, it belongs to
the belief it was derived from, no other new version has its id, and it takes the file of no other
belief. -/
structure Ahead (dir : ArtifactDir) (call : VerdictCall) : Prop where
  later : ∀ u ∈ applied host repositoryId dir call,
    ∀ v ∈ (scanBeliefPayloads host repositoryId dir).1, locator host v = locator host u.current →
      v.1 ∉ newIds host repositoryId dir call →
        rank host v < toLex (call.stamp u.current, u.record.knowledgeId)
  own : ∀ u ∈ applied host repositoryId dir call,
    beliefId host (strip (textOf host u.current.2 "domain"))
      (strip (textOf host u.current.2 "hypothesis")) = locator host u.current
  ids : (newIds host repositoryId dir call).Nodup
  spared : ∀ belief v, current host repositoryId dir belief = some v →
    (∀ u ∈ applied host repositoryId dir call, locator host u.current ≠ belief) →
      v.1 ∉ newIds host repositoryId dir call

end Writing

/-! ### Bodies of new versions -/

section Chain

variable {host : Host} {repositoryId : String} {dir : ArtifactDir} {call : VerdictCall} {u : Update}

lemma requiredValue_eq_ok {belief : Dict Json} {field value : String} :
    requiredValue host belief field = .ok value ↔
      value = strip (textOf host belief field) ∧ value ≠ "" := by
  rw [requiredValue]
  split_ifs with hempty
  · simp only [false_iff, not_and, not_not]
    rintro rfl
    exact hempty
  · rw [Except.ok.injEq]
    constructor
    · rintro rfl
      exact ⟨rfl, hempty⟩
    · rintro ⟨rfl, -⟩
      rfl

lemma beliefPayload_spec {belief : Dict Json} {body : BeliefBody}
    (h : beliefPayload host belief repositoryId = .ok body) :
    body.hypothesis = strip (textOf host belief "hypothesis") ∧
      body.domain = strip (textOf host belief "domain") ∧
      body.lastUpdated = strip (textOf host belief "last_updated") ∧
      countValue host belief "n_confirmations" = .ok body.nConfirmations ∧
      countValue host belief "n_disconfirmations" = .ok body.nDisconfirmations ∧
      listValue host belief "evidence_citations" = .ok body.evidenceCitations ∧
      body.scope = aioAclScope repositoryId := by
  simp only [beliefPayload, bind_eq_ok] at h
  obtain ⟨hypothesis, hhypothesis, domain, hdomain, lastUpdated, hlast, prior, -, confirmations,
    hconfirmations, disconfirmations, hdisconfirmations, class_, -, posterior, -, citations,
    hcitations, hbody⟩ := h
  cases hbody
  exact ⟨(requiredValue_eq_ok.mp hhypothesis).1, (requiredValue_eq_ok.mp hdomain).1,
    (requiredValue_eq_ok.mp hlast).1, hconfirmations, hdisconfirmations, hcitations, rfl⟩

lemma textOf_str {d : Dict Json} {field s : String} (h : Dict.get? field d = some (.str s)) :
    textOf host d field = s := by
  rw [textOf, h, Json.orElse]
  split_ifs with htruthy
  · rfl
  · have hempty : s = "" := by simpa [Json.truthy] using htruthy
    rw [hempty]
    rfl

lemma countValue_int {d : Dict Json} {field : String} {n : ℕ}
    (h : Dict.get? field d = some (.int n)) : countValue host d field = .ok n := by
  simp [countValue, h]

lemma listValue_strings {d : Dict Json} {field : String} {items : List String}
    (h : Dict.get? field d = some (.arr (items.map .str))) :
    listValue host d field = .ok items := by
  have hitems : (items.map Json.str).map (fun item => item.text host.toRuntime) = items := by
    rw [List.map_map]
    exact List.map_id'' (fun _ => rfl) items
  simp only [listValue, h, Option.getD_some, Json.toList, hitems]

/-- A text that `_required_value` leaves as it is. -/
def Filled (s : String) : Prop := strip s = s ∧ s ≠ ""

instance (s : String) : Decidable (Filled s) := inferInstanceAs (Decidable (_ ∧ _))

structure Confidence (q : ℚ) : Prop where
  nonneg : 0 ≤ q
  le_one : q ≤ 1
  rounded : round6 q = q

/-- A body that is its own canonical content. -/
structure Canonical (host : Host) (b : BeliefBody) : Prop where
  hypothesis : Filled b.hypothesis
  domain : Filled b.domain
  lastUpdated : Filled b.lastUpdated
  prior : Confidence b.priorConfidence
  posterior : Confidence b.posteriorConfidence
  ladder : b.evidenceClass ∈ evidenceLadder
  upper : host.upper (strip b.evidenceClass) = b.evidenceClass

section Reading

variable {b : BeliefBody} {d : Dict Json} (hget : ∀ key, Dict.get? key d = Dict.get? key b.toDict)
include hget

lemma requiredValue_filled {field s : String} (hfield : Dict.get? field b.toDict = some (.str s))
    (hs : Filled s) : requiredValue host d field = .ok s := by
  rw [requiredValue_eq_ok, textOf_str ((hget field).trans hfield), hs.1]
  exact ⟨rfl, hs.2⟩

lemma confidenceValue_confidence {field : String} {q : ℚ}
    (hfield : Dict.get? field b.toDict = some (.float (.finite q))) (hq : Confidence q) :
    confidenceValue host d field = .ok q := by
  have hvalue : Dict.get? field d = some (.float (.finite q)) := (hget field).trans hfield
  rw [confidenceValue, hvalue]
  exact if_pos ⟨hq.nonneg, hq.le_one⟩

lemma beliefPayload_canonical (hb : Canonical host b) :
    beliefPayload host d repositoryId = .ok { b with scope := aioAclScope repositoryId } := by
  have hhypothesis : requiredValue host d "hypothesis" = .ok b.hypothesis :=
    requiredValue_filled hget rfl hb.hypothesis
  have hdomain : requiredValue host d "domain" = .ok b.domain :=
    requiredValue_filled hget rfl hb.domain
  have hlast : requiredValue host d "last_updated" = .ok b.lastUpdated :=
    requiredValue_filled hget rfl hb.lastUpdated
  have hprior : confidenceValue host d "prior_confidence" = .ok b.priorConfidence :=
    confidenceValue_confidence hget rfl hb.prior
  have hconfirmations : countValue host d "n_confirmations" = .ok b.nConfirmations :=
    countValue_int (hget _)
  have hdisconfirmations : countValue host d "n_disconfirmations" = .ok b.nDisconfirmations :=
    countValue_int (hget _)
  have hclass : evidenceClassValue host d = .ok b.evidenceClass := by
    have htext : (Json.orElse (Dict.get? "evidence_class" d) (.str "[H]")).text host.toRuntime =
        b.evidenceClass := by
      have hne : b.evidenceClass ≠ "" := by
        intro hempty
        exact absurd hb.ladder (by rw [hempty]; decide)
      have hfield : Dict.get? "evidence_class" d = some (.str b.evidenceClass) := hget _
      simp [Json.orElse, hfield, Json.truthy, hne, Json.text]
    rw [evidenceClassValue, htext, hb.upper, if_pos hb.ladder]
  have hposterior (prior : ℚ) (confirmations disconfirmations : ℕ) :
      posteriorValue host d prior confirmations disconfirmations = .ok b.posteriorConfidence := by
    have hfield : Dict.get? "posterior_confidence" d =
        some (.float (.finite b.posteriorConfidence)) := hget _
    have hvalue : confidenceValue host d "posterior_confidence" = .ok b.posteriorConfidence :=
      confidenceValue_confidence hget rfl hb.posterior
    rw [posteriorValue, hfield]
    simp [hvalue, Except.map, hb.posterior.rounded]
  have hcitations : listValue host d "evidence_citations" = .ok b.evidenceCitations :=
    listValue_strings (hget _)
  simp only [beliefPayload, hhypothesis, hdomain, hlast, hprior, hconfirmations, hdisconfirmations,
    hclass, hposterior, hcitations, hb.prior.rounded, bind, Except.bind, pure, Except.pure]

end Reading

lemma get?_sorted (b : BeliefBody) (key : String) :
    Dict.get? key (sortFields b.toDict) = Dict.get? key b.toDict := by
  rw [get?_sortFields]
  cases hget : Dict.get? key b.toDict with
  | none => rfl
  | some value =>
    have hmem := Dict.mem_of_get? hget
    simp only [BeliefBody.toDict, List.mem_cons, Prod.mk.injEq, List.not_mem_nil, or_false] at hmem
    rcases hmem with h | h | h | h | h | h | h | h | h | h | h <;> simp [h.2]

/-- What a new version takes from the version that it supersedes. -/
structure Derives (host : Host) (repositoryId : String) (call : VerdictCall) (citation : String)
    (u : Update) : Prop where
  hypothesis : u.body.hypothesis = strip (textOf host u.current.2 "hypothesis")
  domain : u.body.domain = strip (textOf host u.current.2 "domain")
  lastUpdated : u.body.lastUpdated = call.stamp u.current
  confirmations : ∃ n, countValue host u.current.2 "n_confirmations" = .ok n ∧
    u.body.nConfirmations = n + if u.signal = .confirm then 1 else 0
  disconfirmations : ∃ n, countValue host u.current.2 "n_disconfirmations" = .ok n ∧
    u.body.nDisconfirmations = n + if u.signal = .disconfirm then 1 else 0
  citations : ∃ items, listValue host u.current.2 "evidence_citations" = .ok items ∧
    u.body.evidenceCitations =
      if citation ≠ "" ∧ citation ∉ items then items ++ [citation] else items
  scope : u.body.scope = aioAclScope repositoryId
  record : buildRecord host (beliefParts host u.body repositoryId (some u.current.1))
    (call.clock u.current.1).2 = .ok u.record

lemma derives_of_versionRecord {citation : String}
    (h : versionRecord host u.current.2 (some u.current.1) u.signal (some citation) repositoryId
      call.observedAt (call.clock u.current.1) = .ok (u.body, u.record)) :
    Derives host repositoryId call citation u := by
  simp only [versionRecord, bind_eq_ok] at h
  obtain ⟨updated, hupdate, hbuild⟩ := h
  simp only [updateBelief, bind_eq_ok] at hupdate
  obtain ⟨base, hbase, hupdated⟩ := hupdate
  obtain ⟨hhypothesis, hdomain, -, hconfirmations, hdisconfirmations, hcitations, -⟩ :=
    beliefPayload_spec hbase
  simp only [buildBeliefRecord, bind_eq_ok, mapError_eq_ok] at hbuild
  obtain ⟨body, hbody, record, hrecord, hpair⟩ := hbuild
  obtain ⟨rfl, rfl⟩ : body = u.body ∧ record = u.record := by
    simpa [pure, Except.pure] using hpair
  obtain ⟨hhypothesis', hdomain', hlast', hconfirmations', hdisconfirmations', hcitations', hscope'⟩ :=
    beliefPayload_spec hbody
  cases hupdated
  rw [textOf_str rfl] at hhypothesis' hdomain' hlast'
  rw [countValue_int rfl, Except.ok.injEq] at hconfirmations' hdisconfirmations'
  rw [listValue_strings rfl, Except.ok.injEq] at hcitations'
  constructor
  · rw [hhypothesis', hhypothesis, strip_strip]
  · rw [hdomain', hdomain, strip_strip]
  · exact hlast'
  · exact ⟨_, hconfirmations, hconfirmations'.symm⟩
  · exact ⟨_, hdisconfirmations, hdisconfirmations'.symm⟩
  · exact ⟨_, hcitations, hcitations'.symm⟩
  · exact hscope'
  · exact hrecord

/-! ### What a call applies -/

lemma consult_eq_updated {fields : VerdictFields} {v : Version}
    (h : consult host repositoryId call fields v = .ok (.updated u)) :
    u.current = v ∧
      Derives host repositoryId call (outcomeCitation fields.specName fields.runId) u := by
  simp only [consult, bind_eq_ok] at h
  obtain ⟨cites, -, h⟩ := h
  split_ifs at h with hcites
  · simp only [bind_eq_ok] at h
    obtain ⟨counts, -, h⟩ := h
    split_ifs at h with hcounts
    · cases h
    · split at h
      · cases h
      · simp only [bind_eq_ok] at h
        obtain ⟨⟨body, record⟩, hversion, h⟩ := h
        cases h
        exact ⟨rfl, derives_of_versionRecord hversion⟩
  · cases h

lemma applied_spec :
    ((applied host repositoryId dir call).map Update.current).Sublist
        (beliefIndex host repositoryId dir).1 ∧
      ∀ u ∈ applied host repositoryId dir call,
        ∃ citation, Derives host repositoryId call citation u := by
  rw [applied]
  cases hresult : applyWaveVerdict host repositoryId call dir with
  | error e => exact ⟨List.nil_sublist _, by simp [Except.toOption]⟩
  | ok result =>
    simp only [applyWaveVerdict, bind_eq_ok] at hresult
    obtain ⟨fields, -, consultations, hconsultations, hresult⟩ := hresult
    cases hresult
    have hall := forall₂_of_mapM hconsultations
    simp only [Except.toOption, Option.elim_some]
    clear hconsultations
    generalize (beliefIndex host repositoryId dir).1 = versions at hall ⊢
    induction hall with
    | nil => exact ⟨List.nil_sublist _, by simp [updatesOf]⟩
    | @cons v c vs cs hc _ ih =>
      cases c with
      | unrelated => exact ⟨ih.1.cons v, ih.2⟩
      | alreadyCounted => exact ⟨ih.1.cons v, ih.2⟩
      | updated u =>
        obtain ⟨rfl, hderives⟩ := consult_eq_updated hc
        refine ⟨ih.1.cons_cons u.current, ?_⟩
        intro w hw
        rcases List.mem_cons.mp hw with rfl | hw
        · exact ⟨_, hderives⟩
        · exact ih.2 w hw

/-! ### The index -/

lemma mem_scan {v : Version} : v ∈ (scanBeliefPayloads host repositoryId dir).1 ↔
    ∃ content, (v.1, content) ∈ dir.files ∧
      classifyBeliefArtifact host repositoryId content = .record v.2 := by
  simp only [scanBeliefPayloads, List.mem_filterMap, mem_sortBy]
  constructor
  · rintro ⟨⟨stem, content⟩, hfile, hkind⟩
    split at hkind
    · rename_i payload hpayload
      rw [← Option.some_injective _ hkind]
      exact ⟨content, hfile, hpayload⟩
    · cases hkind
  · rintro ⟨content, hfile, hkind⟩
    exact ⟨(v.1, content), hfile, by simp [hkind]⟩

lemma scan_unique {v w : Version} (hv : v ∈ (scanBeliefPayloads host repositoryId dir).1)
    (hw : w ∈ (scanBeliefPayloads host repositoryId dir).1) (hstem : v.1 = w.1) : v = w := by
  obtain ⟨content, hfile, hkind⟩ := mem_scan.mp hv
  obtain ⟨content', hfile', hkind'⟩ := mem_scan.mp hw
  rw [hstem] at hfile
  rw [Dict.value_unique dir.nodup hfile hfile', hkind', ArtifactKind.record.injEq] at hkind
  exact Prod.ext hstem hkind.symm

lemma rank_unique {v w : Version} (hv : v ∈ (scanBeliefPayloads host repositoryId dir).1)
    (hw : w ∈ (scanBeliefPayloads host repositoryId dir).1) (hrank : rank host v = rank host w) :
    v = w :=
  scan_unique hv hw (congrArg Prod.snd (toLex.injective hrank))

lemma current_iff {belief : String} {v : Version} :
    current host repositoryId dir belief = some v ↔
      locator host v = belief ∧ v ∈ (scanBeliefPayloads host repositoryId dir).1 ∧
        ∀ w ∈ (scanBeliefPayloads host repositoryId dir).1, locator host w = locator host v →
          rank host w ≤ rank host v :=
  Versions.get?_latest fun _ hv _ hw hrank => rank_unique hv hw hrank

lemma current_none {belief : String} : current host repositoryId dir belief = none ↔
    ∀ w ∈ (scanBeliefPayloads host repositoryId dir).1, locator host w ≠ belief :=
  Versions.get?_latest_none

lemma current_of_mem_index {v : Version} (hv : v ∈ (beliefIndex host repositoryId dir).1) :
    current host repositoryId dir (locator host v) = some v := by
  obtain ⟨entry, hentry, rfl⟩ := List.mem_map.mp (mem_sortBy.mp hv)
  have hget := Versions.get?_of_mem_latest hentry
  rw [(Versions.isLatest_of_get? hget).1]
  exact hget

lemma index_nodup : ((beliefIndex host repositoryId dir).1.map (locator host)).Nodup := by
  have hkeys : ((latestVersions host repositoryId dir).map Prod.snd).map (locator host) =
      (latestVersions host repositoryId dir).map Prod.fst := by
    rw [List.map_map]
    refine List.map_congr_left fun entry hentry => ?_
    exact (Versions.isLatest_of_get? (Versions.get?_of_mem_latest hentry)).1
  have hperm := (sortBy_perm Prod.fst ((latestVersions host repositoryId dir).map Prod.snd)).map
    (locator host)
  rw [beliefIndex, hperm.nodup_iff, hkeys]
  exact Versions.nodup_latest

lemma applied_nodup :
    ((applied host repositoryId dir call).map fun u => locator host u.current).Nodup := by
  have hsub : ((applied host repositoryId dir call).map Update.current).Sublist
      (beliefIndex host repositoryId dir).1 := applied_spec.1
  have hlocators := hsub.map (locator host)
  rw [List.map_map] at hlocators
  exact hlocators.nodup index_nodup

lemma applied_unique {u u' : Update} (hu : u ∈ applied host repositoryId dir call)
    (hu' : u' ∈ applied host repositoryId dir call)
    (hsame : locator host u.current = locator host u'.current) : u = u' :=
  List.inj_on_of_nodup_map applied_nodup hu hu' hsame

lemma current_applied (hu : u ∈ applied host repositoryId dir call) :
    current host repositoryId dir (locator host u.current) = some u.current :=
  current_of_mem_index (applied_spec.1.subset (List.mem_map_of_mem hu))

/-! ### Files that are written -/

lemma mem_writes {us : List Update} {file : String × Option String}
    (hids : (us.map fun u => u.record.knowledgeId).Nodup) :
    file ∈ (us.foldl (ArtifactDir.write host) dir).files ↔
      (∃ u ∈ us, file = (u.record.knowledgeId, some (recordToArtifact host u.record))) ∨
        file ∈ dir.files ∧ file.1 ∉ us.map fun u => u.record.knowledgeId := by
  induction us generalizing dir with
  | nil => simp
  | cons u us ih =>
    obtain ⟨hnew, hids⟩ := List.nodup_cons.mp hids
    have hwrite : file ∈ (dir.write host u).files ↔
        file = (u.record.knowledgeId, some (recordToArtifact host u.record)) ∨
          file ∈ dir.files ∧ file.1 ≠ u.record.knowledgeId := Dict.mem_set
    rw [List.foldl_cons, ih hids, hwrite]
    constructor
    · rintro (⟨u', hu', rfl⟩ | ⟨rfl | ⟨hfile, hne⟩, hother⟩)
      · exact .inl ⟨u', List.mem_cons_of_mem u hu', rfl⟩
      · exact .inl ⟨u, List.mem_cons_self, rfl⟩
      · exact .inr ⟨hfile, List.not_mem_cons_of_ne_of_not_mem hne hother⟩
    · rintro (⟨u', hu', rfl⟩ | ⟨hfile, hother⟩)
      · rcases List.mem_cons.mp hu' with rfl | hu'
        · exact .inr ⟨.inl rfl, hnew⟩
        · exact .inl ⟨u', hu', rfl⟩
      · obtain ⟨hne, hother⟩ := List.ne_and_not_mem_of_not_mem_cons hother
        exact .inr ⟨.inr ⟨hfile, hne⟩, hother⟩

lemma mem_land {file : String × Option String} (hids : (newIds host repositoryId dir call).Nodup) :
    file ∈ (land host repositoryId dir call).files ↔
      (∃ u ∈ applied host repositoryId dir call,
          file = (u.record.knowledgeId, some (recordToArtifact host u.record))) ∨
        file ∈ dir.files ∧ file.1 ∉ newIds host repositoryId dir call := by
  rw [land]
  exact mem_writes hids

lemma classify_artifact {r : KnowledgeRecord} {b : BeliefBody} {raw : String}
    (hartifact : host.loads raw = .ok (sortKeys (.obj (artifactDoc r))))
    (htext : host.loads r.text = .ok (sortKeys (.obj b.toDict)))
    (hextractor : r.extractorVersion = "belief/v1") (hrepository : r.repositoryId = repositoryId)
    (hscope : b.scope = aioAclScope repositoryId) :
    classifyBeliefArtifact host repositoryId (some raw) = .record (sortFields b.toDict) := by
  have hlookup (key value : String) (hblank : key ∉ blankKeys) (hsubject : key ∉ subjectKeys)
      (hfield : Dict.get? key r.toDict = some (.str value)) :
      lookup (sortFields (artifactDoc r)) key = .str value := by
    refine lookup_eq ?_
    rw [get?_artifact hblank hsubject, hfield]
    rfl
  have hactor : lookup (sortFields b.toDict) "actor" = .str "aio" := lookup_eq (get?_sorted b _)
  have hscope : lookup (sortFields b.toDict) "scope" = .str (aioAclScope repositoryId) := by
    rw [← hscope]
    exact lookup_eq (get?_sorted b _)
  simp only [classifyBeliefArtifact, hartifact, sortKeys]
  rw [hlookup "extractor_version" "belief/v1" (by decide) (by decide) (by rw [← hextractor]; rfl),
    hlookup "repository_id" repositoryId (by decide) (by decide) (by rw [← hrepository]; rfl),
    hlookup "text" r.text (by decide) (by decide) rfl]
  simp [htext, sortKeys, hactor, hscope, isText]

lemma classify_new {citation : String} (hderives : Derives host repositoryId call citation u)
    (hreads : ReadsBack host u) :
    classifyBeliefArtifact host repositoryId (some (recordToArtifact host u.record)) =
      .record (sortFields u.body.toDict) := by
  have hrecord := buildRecord_eq_ok hderives.record
  exact classify_artifact hreads.artifact hreads.text
    (congrArg KnowledgeRecord.extractorVersion hrecord)
    (congrArg KnowledgeRecord.repositoryId hrecord) hderives.scope

lemma mem_scan_land {v : Version}
    (hreads : ∀ u ∈ applied host repositoryId dir call, ReadsBack host u)
    (hids : (newIds host repositoryId dir call).Nodup) :
    v ∈ (scanBeliefPayloads host repositoryId (land host repositoryId dir call)).1 ↔
      (∃ u ∈ applied host repositoryId dir call, v = u.version) ∨
        v ∈ (scanBeliefPayloads host repositoryId dir).1 ∧ v.1 ∉ newIds host repositoryId dir call := by
  have hnew (u : Update) (hu : u ∈ applied host repositoryId dir call) :
      classifyBeliefArtifact host repositoryId (some (recordToArtifact host u.record)) =
        .record (sortFields u.body.toDict) := by
    obtain ⟨citation, hderives⟩ := applied_spec.2 u hu
    exact classify_new hderives (hreads u hu)
  rw [mem_scan, mem_scan]
  constructor
  · rintro ⟨content, hfile, hkind⟩
    rcases (mem_land hids).mp hfile with ⟨u, hu, hfile⟩ | ⟨hfile, hother⟩
    · obtain ⟨hstem, rfl⟩ := Prod.mk.inj hfile
      rw [hnew u hu, ArtifactKind.record.injEq] at hkind
      refine .inl ⟨u, hu, Prod.ext hstem ?_⟩
      rw [Update.version_snd, hkind]
    · exact .inr ⟨⟨content, hfile, hkind⟩, hother⟩
  · rintro (⟨u, hu, hv⟩ | ⟨⟨content, hfile, hkind⟩, hother⟩)
    · rw [hv, Update.version_fst, Update.version_snd]
      exact ⟨_, (mem_land hids).mpr (.inl ⟨u, hu, rfl⟩), hnew u hu⟩
    · exact ⟨content, (mem_land hids).mpr (.inr ⟨hfile, hother⟩), hkind⟩

/-! ### One call -/

lemma locator_version {citation : String} (hderives : Derives host repositoryId call citation u) :
    locator host u.version =
      beliefId host (strip (textOf host u.current.2 "domain"))
        (strip (textOf host u.current.2 "hypothesis")) := by
  have hdomain : textOf host u.version.2 "domain" = u.body.domain := by
    rw [Update.version_snd]
    exact textOf_str (get?_sorted u.body _)
  have hhypothesis : textOf host u.version.2 "hypothesis" = u.body.hypothesis := by
    rw [Update.version_snd]
    exact textOf_str (get?_sorted u.body _)
  rw [locator, hdomain, hhypothesis, hderives.domain, hderives.hypothesis]

lemma rank_version {citation : String} (hderives : Derives host repositoryId call citation u) :
    rank host u.version = toLex (call.stamp u.current, u.record.knowledgeId) := by
  have hlast : textOf host u.version.2 "last_updated" = u.body.lastUpdated := by
    rw [Update.version_snd]
    exact textOf_str (get?_sorted u.body _)
  rw [rank, hlast, hderives.lastUpdated, Update.version_fst]

lemma Kept.ids (h : Kept host repositoryId dir call) : (newIds host repositoryId dir call).Nodup := by
  refine List.Nodup.map_on ?_ (applied_nodup.of_map _)
  intro u hu u' hu' hsame
  obtain ⟨hlocator, hmem, -⟩ := current_iff.mp (h.updated u hu)
  obtain ⟨hlocator', hmem', -⟩ := current_iff.mp (h.updated u' hu')
  have hversion : u.version = u'.version := scan_unique hmem hmem' hsame
  refine applied_unique hu hu' ?_
  rw [← hlocator, ← hlocator', hversion]

lemma Ahead.kept (hreads : ∀ u ∈ applied host repositoryId dir call, ReadsBack host u)
    (h : Ahead host repositoryId dir call) : Kept host repositoryId dir call := by
  have hown (u : Update) (hu : u ∈ applied host repositoryId dir call) :
      locator host u.version = locator host u.current := by
    obtain ⟨citation, hderives⟩ := applied_spec.2 u hu
    rw [locator_version hderives, h.own u hu]
  constructor
  · intro u hu
    obtain ⟨citation, hderives⟩ := applied_spec.2 u hu
    refine current_iff.mpr ⟨hown u hu, (mem_scan_land hreads h.ids).mpr (.inl ⟨u, hu, rfl⟩), ?_⟩
    intro w hw hsame
    rcases (mem_scan_land hreads h.ids).mp hw with ⟨u', hu', rfl⟩ | ⟨hw, hstays⟩
    · have hbelief : locator host u'.current = locator host u.current := by
        rw [← hown u' hu', hsame, hown u hu]
      rw [applied_unique hu' hu hbelief]
    · rw [rank_version hderives]
      exact (h.later u hu w hw (hsame.trans (hown u hu)) hstays).le
  · intro belief hother
    ext v
    constructor
    · intro hv
      obtain ⟨hlocator, hmem, hmax⟩ := current_iff.mp hv
      rcases (mem_scan_land hreads h.ids).mp hmem with ⟨u, hu, rfl⟩ | ⟨hmem, -⟩
      · exact absurd ((hown u hu).symm.trans hlocator) (hother u hu)
      · -- The version that the index had stays, so the greatest one that stays is that one.
        cases hold : current host repositoryId dir belief with
        | none => exact absurd hlocator (current_none.mp hold v hmem)
        | some v' =>
          obtain ⟨hlocator', hmem', hmax'⟩ := current_iff.mp hold
          have hstays := h.spared belief v' hold hother
          have hle : rank host v' ≤ rank host v :=
            hmax v' ((mem_scan_land hreads h.ids).mpr (.inr ⟨hmem', hstays⟩))
              (hlocator'.trans hlocator.symm)
          have hge : rank host v ≤ rank host v' := hmax' v hmem (hlocator.trans hlocator'.symm)
          rw [rank_unique hmem' hmem (hle.antisymm hge)]
    · intro hv
      obtain ⟨hlocator, hmem, hmax⟩ := current_iff.mp hv
      have hstays := h.spared belief v hv hother
      refine current_iff.mpr ⟨hlocator, (mem_scan_land hreads h.ids).mpr (.inr ⟨hmem, hstays⟩), ?_⟩
      intro w hw hsame
      rcases (mem_scan_land hreads h.ids).mp hw with ⟨u, hu, rfl⟩ | ⟨hw, -⟩
      · exact absurd ((hown u hu).symm.trans (hsame.trans hlocator)) (hother u hu)
      · exact hmax w hw hsame

lemma Kept.ahead (hreads : ∀ u ∈ applied host repositoryId dir call, ReadsBack host u)
    (h : Kept host repositoryId dir call) : Ahead host repositoryId dir call := by
  have hown (u : Update) (hu : u ∈ applied host repositoryId dir call) :
      locator host u.version = locator host u.current :=
    (current_iff.mp (h.updated u hu)).1
  constructor
  · intro u hu v hv hsame hstays
    obtain ⟨citation, hderives⟩ := applied_spec.2 u hu
    obtain ⟨-, -, hmax⟩ := current_iff.mp (h.updated u hu)
    have hle : rank host v ≤ rank host u.version :=
      hmax v ((mem_scan_land hreads h.ids).mpr (.inr ⟨hv, hstays⟩)) (hsame.trans (hown u hu).symm)
    rw [← rank_version hderives]
    refine lt_of_le_of_ne hle fun hrank => hstays ?_
    have hid : v.1 = u.record.knowledgeId := congrArg Prod.snd (toLex.injective hrank)
    rw [hid]
    exact List.mem_map_of_mem hu
  · intro u hu
    obtain ⟨citation, hderives⟩ := applied_spec.2 u hu
    rw [← locator_version hderives, hown u hu]
  · exact h.ids
  · intro belief v hv hother
    rw [← h.others belief hother] at hv
    obtain ⟨hlocator, hmem, -⟩ := current_iff.mp hv
    rcases (mem_scan_land hreads h.ids).mp hmem with ⟨u, hu, rfl⟩ | ⟨-, hstays⟩
    · exact absurd ((hown u hu).symm.trans hlocator) (hother u hu)
    · exact hstays

/-! ### Counts -/

lemma countOf_some (signal : Signal) (v : Version) {n : ℕ}
    (h : countValue host v.2 signal.field = .ok n) : countOf host signal (some v) = n := by
  rw [countOf, Option.elim_some, h]
  rfl

lemma Derives.count {citation : String} (hderives : Derives host repositoryId call citation u)
    (signal : Signal) :
    countOf host signal (some u.version) =
      countOf host signal (some u.current) + if u.signal = signal then 1 else 0 := by
  cases signal with
  | confirm =>
    obtain ⟨n, hn, hnew⟩ := hderives.confirmations
    have hversion : countValue host u.version.2 "n_confirmations" = .ok u.body.nConfirmations := by
      rw [Update.version_snd]
      exact countValue_int (get?_sorted u.body _)
    rw [countOf_some .confirm u.version hversion, countOf_some .confirm u.current hn, hnew]
  | disconfirm =>
    obtain ⟨n, hn, hnew⟩ := hderives.disconfirmations
    have hversion :
        countValue host u.version.2 "n_disconfirmations" = .ok u.body.nDisconfirmations := by
      rw [Update.version_snd]
      exact countValue_int (get?_sorted u.body _)
    rw [countOf_some .disconfirm u.version hversion, countOf_some .disconfirm u.current hn, hnew]

lemma countP_named {α : Type} (name : α → String) (p : α → Bool) {l : List α} {a : α}
    (hnodup : (l.map name).Nodup) (ha : a ∈ l) :
    l.countP (fun b => name b = name a ∧ p b) = if p a then 1 else 0 := by
  induction l with
  | nil => cases ha
  | cons b l ih =>
    obtain ⟨hnew, hnodup⟩ := List.nodup_cons.mp hnodup
    rcases List.mem_cons.mp ha with rfl | ha
    · have hrest : l.countP (fun b => name b = name a ∧ p b) = 0 := by
        rw [List.countP_eq_zero]
        intro b hb hsame
        have hname : name b = name a := (of_decide_eq_true hsame).1
        exact hnew (hname ▸ List.mem_map_of_mem hb)
      rw [List.countP_cons, hrest]
      simp
    · have hne : name b ≠ name a := fun hsame => hnew (hsame ▸ List.mem_map_of_mem ha)
      rw [List.countP_cons, ih hnodup ha]
      simp [hne]

lemma Kept.count (h : Kept host repositoryId dir call) (belief : String) (signal : Signal) :
    countOf host signal (current host repositoryId (land host repositoryId dir call) belief) =
      countOf host signal (current host repositoryId dir belief) +
        (applied host repositoryId dir call).countP
          fun u => locator host u.current = belief ∧ u.signal = signal := by
  by_cases hupdated : ∃ u ∈ applied host repositoryId dir call, locator host u.current = belief
  · obtain ⟨u, hu, rfl⟩ := hupdated
    obtain ⟨citation, hderives⟩ := applied_spec.2 u hu
    have hcount := countP_named (fun u : Update => locator host u.current)
      (fun u => u.signal = signal) applied_nodup hu
    simp only [decide_eq_true_eq] at hcount
    rw [h.updated u hu, current_applied hu, hderives.count, hcount]
  · have hother : ∀ u ∈ applied host repositoryId dir call, locator host u.current ≠ belief :=
      fun u hu hlocator => hupdated ⟨u, hu, hlocator⟩
    have hnone : (applied host repositoryId dir call).countP
        (fun u => locator host u.current = belief ∧ u.signal = signal) = 0 := by
      rw [List.countP_eq_zero]
      intro u hu hsame
      exact hother u hu (of_decide_eq_true hsame).1
    rw [h.others belief hother, hnone, add_zero]

/-! ### Runs -/

lemma counts_of_kept {calls : List VerdictCall}
    (h : Along (land host repositoryId) (Kept host repositoryId) dir calls) (belief : String)
    (signal : Signal) :
    countOf host signal (current host repositoryId (calls.foldl (land host repositoryId) dir) belief) =
      countOf host signal (current host repositoryId dir belief) +
        updatesWith host repositoryId signal belief dir calls := by
  induction calls generalizing dir with
  | nil => rfl
  | cons call calls ih =>
    rw [List.foldl_cons, ih h.2, h.1.count, updatesWith, add_assoc]

/-- No update is lost exactly in the runs whose calls all come in order. -/
theorem no_update_lost_iff {calls : List VerdictCall}
    (hreads : Along (land host repositoryId)
      (fun dir call => ∀ u ∈ applied host repositoryId dir call, ReadsBack host u) dir calls) :
    NoUpdateLost host repositoryId dir calls ↔
      Along (land host repositoryId) (Ahead host repositoryId) dir calls := by
  have hsame : Along (land host repositoryId) (Kept host repositoryId) dir calls ↔
      Along (land host repositoryId) (Ahead host repositoryId) dir calls := by
    induction calls generalizing dir with
    | nil => rfl
    | cons call calls ih =>
      exact and_congr ⟨fun h => h.ahead hreads.1, fun h => h.kept hreads.1⟩ (ih hreads.2)
  rw [← hsame]
  constructor
  · exact NoUpdateLost.kept
  · intro hkept
    refine ⟨hkept, fun before hbefore belief signal => counts_of_kept ?_ belief signal⟩
    exact hkept.of_prefix hbefore

end Chain

/-! ### A belief and one verdict -/

/-- An object of fields that are written already, between quotation marks `q`. -/
def objectText (q : String) (fields : List (String × String)) : String :=
  "\x7b" ++ ", ".intercalate (fields.map fun field => q ++ field.1 ++ q ++ ": " ++ field.2) ++ "\x7d"

def listText (q : String) (items : List String) : String :=
  "[" ++ ", ".intercalate (items.map fun item => q ++ item ++ q) ++ "]"

def convergenceId : String := "ea8f354bb7d0b820"

def convergenceEntity : String := "bc60377bc30dd05f763147d2c60fd9b1bc99cd49632b14a744758f93df0f5ad5"

def seedId : String := "de5b0faed3e88954966b4ae22345e708e9bbdef82cb109b113b7379693af7f6c"

/-- The belief after so many confirmations. -/
def convergence (confirmations : ℕ) (posterior : ℚ) (citations : List String) (lastUpdated : String) :
    BeliefBody where
  hypothesis := "flash converges"
  priorConfidence := 1 / 2
  nConfirmations := confirmations
  nDisconfirmations := 0
  lastUpdated := lastUpdated
  posteriorConfidence := posterior
  evidenceClass := "[M]"
  domain := "repo"
  evidenceCitations := citations
  scope := "org:agentic-dynamics"

/-- The text of a body, between quotation marks `q`. -/
def convergenceText (q posterior : String) (b : BeliefBody) : String :=
  objectText q
    [("actor", q ++ "aio" ++ q),
      ("domain", q ++ b.domain ++ q),
      ("evidence_citations", listText q b.evidenceCitations),
      ("evidence_class", q ++ b.evidenceClass ++ q),
      ("hypothesis", q ++ b.hypothesis ++ q),
      ("last_updated", q ++ b.lastUpdated ++ q),
      ("n_confirmations", toString b.nConfirmations),
      ("n_disconfirmations", toString b.nDisconfirmations),
      ("posterior_confidence", posterior),
      ("prior_confidence", "0.5"),
      ("scope", q ++ b.scope ++ q)]

def convergenceArtifact (supersedes tokens posterior : String) (b : BeliefBody) : String :=
  objectText "\""
    [("acl_scope", "\"org:agentic-dynamics\""),
      ("authority", "\"ADVISORY\""),
      ("branch", "\"\""),
      ("causes", "null"),
      ("commit_sha", "\"\""),
      ("confidence", "null"),
      ("contains_sensitive_data", "false"),
      ("content_hash", "\"\""),
      ("embedding_version", "\"\""),
      ("entity_id", "\"" ++ convergenceEntity ++ "\""),
      ("evidence_class", "\"[H]\""),
      ("extractor_version", "\"belief/v1\""),
      ("indexed_at", "\"\""),
      ("knowledge_id", "\"\""),
      ("language", "\"\""),
      ("logical_locator", "\"" ++ convergenceId ++ "\""),
      ("observed_at", "\"\""),
      ("outcome_id", "\"\""),
      ("perturbation_strength", "null"),
      ("repository_id", "\"agentic-dynamics\""),
      ("source_type", "\"belief\""),
      ("source_uri", "\"belief:" ++ convergenceId ++ "\""),
      ("supersedes", supersedes),
      ("symbols", "[]"),
      ("test_executed_success", "null"),
      ("text", "\"" ++ convergenceText "\\\"" posterior b ++ "\""),
      ("token_count", tokens),
      ("valid_from", "\"\""),
      ("valid_to", "null"),
      ("worktree_id", "\"\"")]

def seedBody : BeliefBody := convergence 0 (1 / 2) ["kb_layer wave verdict"] "2026-09-01T10:00:00Z"

/-- The body after a verdict on a run that ended then. -/
def confirmedBody (endedAt : String) : BeliefBody :=
  convergence 1 (666667 / 1000000) ["kb_layer wave verdict", "kb_layer wave verdict run-1"] endedAt

def seedArtifact : String := convergenceArtifact "null" "25" "0.5" seedBody

def confirmedArtifact (endedAt : String) : String :=
  convergenceArtifact ("\"" ++ seedId ++ "\"") "29" "0.666667" (confirmedBody endedAt)

def seedText : String := convergenceText "\"" "0.5" seedBody

def confirmedText (endedAt : String) : String :=
  convergenceText "\"" "0.666667" (confirmedBody endedAt)

/-- The record of the belief, before its identities are filled in. -/
def convergenceDraft (b : BeliefBody) (text : String) (supersedes : Option String) :
    KnowledgeRecord where
  knowledgeId := ""
  entityId := convergenceEntity
  sourceUri := "belief:" ++ convergenceId
  sourceType := "belief"
  logicalLocator := convergenceId
  repositoryId := "agentic-dynamics"
  branch := ""
  worktreeId := ""
  commitSha := ""
  contentHash := ""
  extractorVersion := "belief/v1"
  embeddingVersion := ""
  authority := .advisory
  validFrom := "2026-09-01T12:00:00+00:00"
  validTo := none
  observedAt := b.lastUpdated
  indexedAt := "2026-09-01T12:00:00+00:00"
  aclScope := "org:agentic-dynamics"
  containsSensitiveData := false
  text := text
  tokenCount := max 1 (words text).length
  language := ""
  symbols := []
  outcomeId := ""
  testExecutedSuccess := none
  evidenceClass := "[H]"
  supersedes := supersedes

def seedRecord : KnowledgeRecord := convergenceDraft seedBody seedText none

def confirmedDraft (endedAt : String) : KnowledgeRecord :=
  convergenceDraft (confirmedBody endedAt) (confirmedText endedAt) (some seedId)

def confirmedParts (endedAt : String) : RecordParts where
  sourceType := "belief"
  sourceUri := "belief:" ++ convergenceId
  logicalLocator := convergenceId
  repositoryId := "agentic-dynamics"
  revision := "belief/unrevisioned"
  authority := .advisory
  evidenceClass := "[H]"
  text := confirmedText endedAt
  extra :=
    { commitSha := some ""
      extractorVersion := some "belief/v1"
      aclScope := some "org:agentic-dynamics"
      observedAt := some endedAt
      supersedes := some (some seedId) }

/-- The content hash and the knowledge id of the new version. -/
def confirmedIds (endedAt : String) : String × String :=
  if endedAt = "2026-09-01T11:00:00Z" then
    ("dc1e0d359299163b985ea67b830e2f46ac42f50f24a1d26d1ccdd68c4ddfc57d",
      "5733004f3a4b733e451e6e138f6476453acbad43b16de35196f143b53d6f51b7")
  else
    ("39d9bf055161c400fb92cd534baf0ead18afb2862693fd68c02386cb4d634e1d",
      "c8002c919bed28269e9387e682bb04e0804abef11a1afce2ef6501b0c8b6582b")

def convergenceDocuments (endedAt : String) : Dict Json :=
  [(seedArtifact, .obj (sortFields (artifactDoc seedRecord))),
    (seedText, .obj (sortFields seedBody.toDict)),
    (confirmedArtifact endedAt, .obj (sortFields (artifactDoc (confirmedDraft endedAt)))),
    (confirmedText endedAt, .obj (sortFields (confirmedBody endedAt).toDict))]

def convergenceDigests (endedAt : String) : Dict String :=
  [("repo|flash converges", "ea8f354bb7d0b820d5e68d3872fde653da5f73b66af3a43243a1ff81a57b4cc0"),
    ("agentic-dynamics|belief:" ++ convergenceId ++ "|" ++ convergenceId, convergenceEntity),
    (confirmedArtifact endedAt, (confirmedIds endedAt).1),
    (convergenceEntity ++ "|belief/unrevisioned|" ++ (confirmedIds endedAt).1 ++ "|belief/v1",
      (confirmedIds endedAt).2)]

def convergenceHost (endedAt : String) : Host where
  loads text :=
    match Dict.get? text (convergenceDocuments endedAt) with
    | some value => .ok value
    | none       => .error ("JSONDecodeError", "Expecting value: line 1 column 1 (char 0)")
  repr _ := ""
  upper s := String.ofList (s.toList.map Char.toUpper)
  lower s := String.ofList (s.toList.map Char.toLower)
  sha256 text := (Dict.get? text (convergenceDigests endedAt)).getD ""
  dumps value :=
    match value with
    | .obj fields =>
      if (Dict.get? "text" fields).isSome then confirmedArtifact endedAt else confirmedText endedAt
    | _ => ""
  fromisoformat _ := none

def seedDir : ArtifactDir where
  files := [(seedId, some seedArtifact)]
  nodup := List.nodup_singleton _

def convergenceCall (endedAt : String) : VerdictCall where
  verdictPayload := [("spec_name", .str "kb_layer"), ("run_id", .str "run-1"), ("verdict", .str "clean")]
  observedAt := some endedAt
  clock _ := ("2026-09-01T12:00:00+00:00", "2026-09-01T12:00:00+00:00")

def convergenceUpdate (endedAt : String) : Update where
  current := (seedId, sortFields seedBody.toDict)
  signal := .confirm
  body := confirmedBody endedAt
  record :=
    { confirmedDraft endedAt with
      contentHash := (confirmedIds endedAt).1
      knowledgeId := (confirmedIds endedAt).2 }

lemma scan_of_file {host : Host} {repositoryId stem : String} {content : Option String}
    {payload : Dict Json} {dir : ArtifactDir} (hfiles : dir.files = [(stem, content)])
    (hkind : classifyBeliefArtifact host repositoryId content = .record payload) :
    (scanBeliefPayloads host repositoryId dir).1 = [(stem, payload)] := by
  simp [scanBeliefPayloads, hfiles, hkind, sortBy]

lemma index_of_scan {host : Host} {repositoryId : String} {v : Version} {dir : ArtifactDir}
    (hscan : (scanBeliefPayloads host repositoryId dir).1 = [v]) :
    (beliefIndex host repositoryId dir).1 = [v] := by
  simp [beliefIndex, latestVersions, hscan, sortBy, Versions.latest, Versions.keep, Dict.get?,
    Dict.set]

lemma applied_of_index {host : Host} {repositoryId : String} {dir : ArtifactDir} {call : VerdictCall}
    {fields : VerdictFields} {v : Version} {c : Consultation}
    (hfields : verdictFields host call.verdictPayload = .ok fields)
    (hindex : (beliefIndex host repositoryId dir).1 = [v])
    (hconsult : consult host repositoryId call fields v = .ok c) :
    applied host repositoryId dir call = updatesOf [c] := by
  simp only [applied, applyWaveVerdict, hfields, hindex, List.mapM_cons, List.mapM_nil, hconsult,
    bind, Except.bind, pure, Except.pure]
  rfl

/-- Before and after the time at which the seed was updated. -/
def endTimes : List String := ["2026-09-01T11:00:00Z", "2026-09-01T09:00:00Z"]

lemma convergence_computed : ∀ endedAt ∈ endTimes,
    (((convergenceDocuments endedAt).map Prod.fst).Nodup ∧
      (convergenceHost endedAt).upper (strip seedBody.evidenceClass) = seedBody.evidenceClass) ∧
    (beliefId (convergenceHost endedAt) "repo" "flash converges" = convergenceId ∧
      computeEntityId (convergenceHost endedAt) "agentic-dynamics" ("belief:" ++ convergenceId)
        convergenceId = convergenceEntity) ∧
    ((convergenceHost endedAt).sha256 (confirmedArtifact endedAt) = (confirmedIds endedAt).1 ∧
      computeKnowledgeId (convergenceHost endedAt) convergenceEntity "belief/unrevisioned"
        (confirmedIds endedAt).1 "belief/v1" = (confirmedIds endedAt).2) ∧
    namedIn (convergenceHost endedAt) "kb_layer" (.str "kb_layer wave verdict") = true ∧
      namedIn (convergenceHost endedAt) "run-1" (.str "kb_layer wave verdict") = false := by
  decide +kernel

lemma convergence_numbers :
    (Confidence seedBody.priorConfidence ∧ Confidence seedBody.posteriorConfidence) ∧
      Confidence (666667 / 1000000) ∧ computePosterior (1 / 2) 1 0 = 666667 / 1000000 := by
  refine ⟨⟨⟨?_, ?_, ?_⟩, ⟨?_, ?_, ?_⟩⟩, ⟨?_, ?_, ?_⟩, ?_⟩ <;> decide +kernel

section Convergence

variable {endedAt : String} (hend : endedAt ∈ endTimes)
include hend

lemma loads_convergence {text : String} {value : Json}
    (hmem : (text, value) ∈ convergenceDocuments endedAt) :
    (convergenceHost endedAt).loads text = .ok value := by
  have hkeys := (convergence_computed endedAt hend).1.1
  have hget : Dict.get? text (convergenceDocuments endedAt) = some value :=
    Dict.get?_of_mem hmem fun kv hkv hkey => Dict.value_unique hkeys (hkey ▸ hkv : (text, kv.2) ∈ _) hmem
  simp only [convergenceHost, hget]

lemma canonical_seed : Canonical (convergenceHost endedAt) seedBody := by
  have hupper := (convergence_computed endedAt hend).1.2
  obtain ⟨hprior, hposterior⟩ := convergence_numbers.1
  exact ⟨by decide, by decide, by decide, hprior, hposterior, by decide, hupper⟩

lemma canonical_confirmed : Canonical (convergenceHost endedAt) (confirmedBody endedAt) := by
  have hseed := canonical_seed hend
  have hfilled : ∀ endedAt ∈ endTimes, Filled endedAt := by decide
  have hposterior : Confidence (666667 / 1000000) := convergence_numbers.2.1
  exact ⟨hseed.hypothesis, hseed.domain, hfilled endedAt hend, hseed.prior, hposterior, hseed.ladder,
    hseed.upper⟩

lemma scan_seed : (scanBeliefPayloads (convergenceHost endedAt) "agentic-dynamics" seedDir).1 =
    [(seedId, sortFields seedBody.toDict)] := by
  have hartifact : (convergenceHost endedAt).loads seedArtifact =
      .ok (.obj (sortFields (artifactDoc seedRecord))) :=
    loads_convergence hend (by simp [convergenceDocuments])
  have htext : (convergenceHost endedAt).loads seedRecord.text =
      .ok (.obj (sortFields seedBody.toDict)) := by
    rw [seedRecord, convergenceDraft]
    exact loads_convergence hend (by simp [convergenceDocuments])
  exact scan_of_file rfl (classify_artifact hartifact htext rfl rfl rfl)

lemma draft_confirmed : beliefParts (convergenceHost endedAt) (confirmedBody endedAt)
      "agentic-dynamics" (some seedId) = confirmedParts endedAt ∧
    (confirmedParts endedAt).entity (convergenceHost endedAt) = convergenceEntity ∧
    (confirmedParts endedAt).draft (convergenceHost endedAt) "2026-09-01T12:00:00+00:00" =
      confirmedDraft endedAt := by
  obtain ⟨hid, hentity⟩ := (convergence_computed endedAt hend).2.1
  have hparts : (confirmedParts endedAt).entity (convergenceHost endedAt) = convergenceEntity :=
    hentity
  refine ⟨?_, hparts, ?_⟩
  · rw [confirmedParts, ← hid]
    rfl
  · rw [RecordParts.draft, hparts]
    rfl

omit hend in
lemma artifact_confirmed : recordToArtifact (convergenceHost endedAt) (confirmedDraft endedAt) =
    confirmedArtifact endedAt := by
  have hfield : Dict.get? "text" (artifactDoc (confirmedDraft endedAt)) =
      some (.str (confirmedText endedAt)) := by
    rw [artifactDoc, get?_dropEmpty, if_neg fun h => absurd h.1 (by decide), get?_blank,
      if_neg (by decide)]
    rfl
  simp only [recordToArtifact, convergenceHost, hfield, Option.isSome_some, if_true]

lemma buildRecord_confirmed : buildRecord (convergenceHost endedAt) (confirmedParts endedAt)
    "2026-09-01T12:00:00+00:00" = .ok (convergenceUpdate endedAt).record := by
  obtain ⟨hhash, hknowledge⟩ := (convergence_computed endedAt hend).2.2.1
  obtain ⟨-, hentity, hdraft⟩ := draft_confirmed hend
  have hid : computeKnowledgeId (convergenceHost endedAt) convergenceEntity
      (confirmedParts endedAt).revision (confirmedIds endedAt).1
      (confirmedDraft endedAt).extractorVersion = (confirmedIds endedAt).2 :=
    hknowledge
  rw [buildRecord, if_neg (by simp [confirmedParts])]
  simp only [hdraft, hentity, artifact_confirmed, hhash, hid]
  rfl

lemma updateBelief_seed : updateBelief (convergenceHost endedAt) (sortFields seedBody.toDict)
    .confirm (some (outcomeCitation "kb_layer" "run-1")) (some endedAt)
    "2026-09-01T12:00:00+00:00" = .ok (confirmedBody endedAt) := by
  have hbase : beliefPayload (convergenceHost endedAt) (sortFields seedBody.toDict)
      repositoryIdDefault = .ok seedBody :=
    beliefPayload_canonical (get?_sorted seedBody) (canonical_seed hend)
  have hstamp : ∀ endedAt ∈ endTimes,
      Python.orElse (some endedAt) "2026-09-01T12:00:00+00:00" = endedAt := by decide
  have hposterior : computePosterior (1 / 2) 1 0 = 666667 / 1000000 := convergence_numbers.2.2
  have hcitations : (if outcomeCitation "kb_layer" "run-1" ≠ "" ∧
        outcomeCitation "kb_layer" "run-1" ∉ ["kb_layer wave verdict"] then
      ["kb_layer wave verdict"] ++ [outcomeCitation "kb_layer" "run-1"]
      else ["kb_layer wave verdict"]) =
    ["kb_layer wave verdict", "kb_layer wave verdict run-1"] := by decide
  rw [updateBelief, hbase, confirmedBody, ← hcitations, ← hposterior]
  simp only [bind, Except.bind, hstamp endedAt hend]
  rfl

lemma versionRecord_convergence : versionRecord (convergenceHost endedAt)
    (sortFields seedBody.toDict) (some seedId) .confirm
    (some (outcomeCitation "kb_layer" "run-1")) "agentic-dynamics" (some endedAt)
    ("2026-09-01T12:00:00+00:00", "2026-09-01T12:00:00+00:00") =
      .ok (confirmedBody endedAt, (convergenceUpdate endedAt).record) := by
  have hpayload : beliefPayload (convergenceHost endedAt) (confirmedBody endedAt).toDict
      "agentic-dynamics" = .ok (confirmedBody endedAt) :=
    beliefPayload_canonical (fun _ => rfl) (canonical_confirmed hend)
  simp only [versionRecord, updateBelief_seed hend, buildBeliefRecord, hpayload,
    (draft_confirmed hend).1, buildRecord_confirmed hend, bind, Except.bind, Except.mapError, pure,
    Except.pure]

lemma consult_convergence : consult (convergenceHost endedAt) "agentic-dynamics"
    (convergenceCall endedAt) ⟨"kb_layer", "run-1", "clean"⟩ (seedId, sortFields seedBody.toDict) =
      .ok (.updated (convergenceUpdate endedAt)) := by
  have hcitations : citationsOf (sortFields seedBody.toDict) = .ok [.str "kb_layer wave verdict"] := by
    rw [citationsOf, get?_sorted]
    rfl
  obtain ⟨hspec, hrun⟩ := (convergence_computed endedAt hend).2.2.2
  have hcites : citesWave (convergenceHost endedAt) (sortFields seedBody.toDict) "kb_layer" "run-1" =
      .ok true := by
    rw [citesWave, hcitations]
    simp [bind, Except.bind, pure, Except.pure, hspec]
  have hcounts : alreadyCounts (convergenceHost endedAt) (sortFields seedBody.toDict) "run-1" =
      .ok false := by
    rw [alreadyCounts, hcitations]
    simp [bind, Except.bind, pure, Except.pure, hrun]
  have hsignal : Signal.ofName? ((convergenceCall endedAt).signal ⟨"kb_layer", "run-1", "clean"⟩
      (sortFields seedBody.toDict)) = some .confirm := by
    simp only [VerdictCall.signal, convergenceCall, Option.elim_none]
    decide
  have hversion : versionRecord (convergenceHost endedAt) (sortFields seedBody.toDict) (some seedId)
      .confirm (some (outcomeCitation "kb_layer" "run-1")) "agentic-dynamics"
      (convergenceCall endedAt).observedAt ((convergenceCall endedAt).clock seedId) =
        .ok (confirmedBody endedAt, (convergenceUpdate endedAt).record) :=
    versionRecord_convergence hend
  simp only [consult, hcites, hcounts, hsignal, hversion, bind, Except.bind, pure, Except.pure]
  rfl

omit hend in
lemma fields_convergence : verdictFields (convergenceHost endedAt)
    (convergenceCall endedAt).verdictPayload = .ok ⟨"kb_layer", "run-1", "clean"⟩ := by
  have hspec : strip "kb_layer" = "kb_layer" := by decide
  have hrun : strip "run-1" = "run-1" := by decide
  have hverdict : strip "clean" = "clean" := by decide
  rw [verdictFields, textOf_str rfl, textOf_str rfl, textOf_str rfl, hspec, hrun, hverdict]
  exact if_neg (by decide)

lemma applied_convergence : applied (convergenceHost endedAt) "agentic-dynamics" seedDir
    (convergenceCall endedAt) = [convergenceUpdate endedAt] :=
  applied_of_index fields_convergence (index_of_scan (scan_seed hend)) (consult_convergence hend)

lemma reads_convergence (u : Update)
    (hu : u ∈ applied (convergenceHost endedAt) "agentic-dynamics" seedDir (convergenceCall endedAt)) :
    ReadsBack (convergenceHost endedAt) u := by
  rw [applied_convergence hend, List.mem_singleton] at hu
  have hdoc : artifactDoc (convergenceUpdate endedAt).record = artifactDoc (confirmedDraft endedAt) :=
    artifactDoc_identities _ _ _
  rw [hu]
  constructor
  · have hdumps : (convergenceHost endedAt).dumps (.obj (artifactDoc (confirmedDraft endedAt))) =
        confirmedArtifact endedAt := artifact_confirmed
    have hloads : (convergenceHost endedAt).loads (confirmedArtifact endedAt) =
        .ok (.obj (sortFields (artifactDoc (confirmedDraft endedAt)))) :=
      loads_convergence hend (by simp [convergenceDocuments])
    rw [recordToArtifact, hdoc, hdumps, hloads, sortKeys]
  · have hloads : (convergenceHost endedAt).loads (confirmedText endedAt) =
        .ok (.obj (sortFields (confirmedBody endedAt).toDict)) :=
      loads_convergence hend (by simp [convergenceDocuments])
    have hbody : (convergenceUpdate endedAt).body = confirmedBody endedAt := rfl
    have htext : (convergenceUpdate endedAt).record.text = confirmedText endedAt := rfl
    rw [htext, hloads, hbody, sortKeys]

omit hend in
lemma rank_seed : rank (convergenceHost endedAt) (seedId, sortFields seedBody.toDict) =
    toLex ("2026-09-01T10:00:00Z", seedId) := by
  rw [rank, textOf_str (get?_sorted seedBody "last_updated")]
  rfl

lemma stamp_convergence (v : Version) : (convergenceCall endedAt).stamp v = endedAt := by
  have hstamp : ∀ endedAt ∈ endTimes,
      strip (Python.orElse (some endedAt) "2026-09-01T12:00:00+00:00") = endedAt := by decide
  exact hstamp endedAt hend

lemma ahead_convergence (hlater : "2026-09-01T10:00:00Z" < endedAt) :
    Ahead (convergenceHost endedAt) "agentic-dynamics" seedDir (convergenceCall endedAt) := by
  constructor
  · intro u hu v hv _ _
    rw [applied_convergence hend, List.mem_singleton] at hu
    rw [scan_seed hend, List.mem_singleton] at hv
    rw [hu, hv, rank_seed, stamp_convergence hend, Prod.Lex.toLex_lt_toLex]
    exact .inl hlater
  · intro u hu
    rw [applied_convergence hend, List.mem_singleton] at hu
    have hdomain : textOf (convergenceHost endedAt) u.current.2 "domain" = "repo" := by
      rw [hu]
      exact textOf_str (get?_sorted seedBody "domain")
    have hhypothesis : textOf (convergenceHost endedAt) u.current.2 "hypothesis" =
        "flash converges" := by
      rw [hu]
      exact textOf_str (get?_sorted seedBody "hypothesis")
    have hstrip : strip "repo" = "repo" ∧ strip "flash converges" = "flash converges" := by decide
    rw [locator, hdomain, hhypothesis, hstrip.1, hstrip.2]
  · rw [newIds, applied_convergence hend]
    exact List.nodup_singleton _
  · intro belief v hv hother
    obtain ⟨hlocator, hmem, -⟩ := current_iff.mp hv
    rw [scan_seed hend, List.mem_singleton] at hmem
    refine absurd ?_ (hother (convergenceUpdate endedAt) ?_)
    · rw [← hlocator, hmem]
      rfl
    · rw [applied_convergence hend]
      exact List.mem_singleton_self _

end Convergence

/-- A verdict on a run that ended after the belief was updated. -/
theorem no_update_lost_late : NoUpdateLost (convergenceHost "2026-09-01T11:00:00Z") "agentic-dynamics"
    seedDir [convergenceCall "2026-09-01T11:00:00Z"] := by
  have hend : "2026-09-01T11:00:00Z" ∈ endTimes := by decide
  have hreads : Along (land (convergenceHost "2026-09-01T11:00:00Z") "agentic-dynamics")
      (fun dir call => ∀ u ∈ applied (convergenceHost "2026-09-01T11:00:00Z") "agentic-dynamics" dir
        call, ReadsBack (convergenceHost "2026-09-01T11:00:00Z") u)
      seedDir [convergenceCall "2026-09-01T11:00:00Z"] := ⟨reads_convergence hend, trivial⟩
  exact (no_update_lost_iff hreads).mpr ⟨ahead_convergence hend (by decide), trivial⟩

/-- A verdict on a run that ended before the belief was updated. -/
theorem early_update_lost :
    (∀ u ∈ applied (convergenceHost "2026-09-01T09:00:00Z") "agentic-dynamics" seedDir
        (convergenceCall "2026-09-01T09:00:00Z"),
      ReadsBack (convergenceHost "2026-09-01T09:00:00Z") u) ∧
    ¬ NoUpdateLost (convergenceHost "2026-09-01T09:00:00Z") "agentic-dynamics" seedDir
      [convergenceCall "2026-09-01T09:00:00Z"] := by
  have hend : "2026-09-01T09:00:00Z" ∈ endTimes := by decide
  refine ⟨reads_convergence hend, fun hkept => ?_⟩
  have hahead := hkept.kept.1.ahead (reads_convergence hend)
  have hlater := hahead.later (convergenceUpdate "2026-09-01T09:00:00Z")
    (by rw [applied_convergence hend]; exact List.mem_singleton_self _)
    (seedId, sortFields seedBody.toDict) (by rw [scan_seed hend]; exact List.mem_singleton_self _)
    rfl (by rw [newIds, applied_convergence hend]; decide)
  rw [rank_seed, stamp_convergence hend, Prod.Lex.toLex_lt_toLex] at hlater
  exact absurd hlater (by decide)

end AgenticDynamics.Knowledge.Beliefs
