import AgenticDynamics.Experiment.SpecDocument

/-!
# From a spec to its document, and back

What loading brings to one type or gives a default is left alone when it is loaded again.
-/

namespace AgenticDynamics.Experiment.Loaded

open Python

variable {V : Type} (D : Document V)

@[simp] lemma ok_bind {ε α β : Type} (a : α) (f : α → Except ε β) :
    ((Except.ok a : Except ε α) >>= f) = f a := rfl

@[simp] lemma map_ok {ε α β : Type} (f : α → β) (a : α) :
    (f <$> (Except.ok a : Except ε α)) = .ok (f a) := rfl

namespace Document

@[simp] lemma fields_dict (entries : Dict V) :
    D.fields (D.dict entries) = .ok fun key => Dict.get? key entries := by
  rw [fields, D.mapping_dict]

@[simp] lemma iterate_list (values : List V) : D.iterate (D.list values) = .ok values := by
  rw [iterate, D.items_list]

lemma orElse_of_truthy {value : V} (h : D.truthy value = true) (fallback : V) :
    D.orElse value fallback = value := if_pos h

@[simp] lemma orElse_orElse (value fallback : V) :
    D.orElse (D.orElse value fallback) fallback = D.orElse value fallback := by
  by_cases h : D.truthy value = true
  · rw [D.orElse_of_truthy h, D.orElse_of_truthy h]
  · have hfallback : D.orElse value fallback = fallback := if_neg h
    rw [hfallback]
    exact ite_self fallback

@[simp] lemma orElse_list (values : List V) :
    D.orElse (D.list values) (D.list []) = D.list values := by
  cases values with
  | nil => exact ite_self _
  | cons value rest => exact D.orElse_of_truthy (D.truthy_list _) _

@[simp] lemma orElse_dict_cons (kv : String × V) (rest : Dict V) (fallback : V) :
    D.orElse (D.dict (kv :: rest)) fallback = D.dict (kv :: rest) :=
  D.orElse_of_truthy (D.truthy_dict _) _

@[simp] lemma orElse_str (s : String) : D.orElse (D.str s) (D.str "") = D.str s := by
  by_cases h : s = ""
  · rw [h]
    exact ite_self _
  · exact D.orElse_of_truthy (by simp [D.truthy_str, h]) _

lemma orElse_str_of_ne {s : String} (h : s ≠ "") (fallback : V) :
    D.orElse (D.str s) fallback = D.str s :=
  D.orElse_of_truthy (by simp [D.truthy_str, h]) _

lemma text_orElse_ne_empty (value : V) {s : String} (hs : s ≠ "") :
    D.text (D.orElse value (D.str s)) ≠ "" := by
  rw [orElse]
  split_ifs with h
  · exact D.text_ne_empty value h
  · rwa [D.text_str]

@[simp] lemma asNameList_list (names : List String) :
    D.asNameList (D.list (names.map D.str)) = .ok names := by
  simp [asNameList, D.isNone_list, D.asStr_list, Function.comp_def, D.text_str]

/-- What `_as_optional_str` keeps. -/
def Stripped (value : Option String) : Prop := ∀ text ∈ value, strip text = text ∧ text ≠ ""

lemma stripped_asOptionalStr (value : V) : Stripped (D.asOptionalStr value) := by
  intro text htext
  simp only [asOptionalStr, Option.mem_def, Option.ite_none_left_eq_some, Option.some_inj] at htext
  obtain ⟨-, hempty, rfl⟩ := htext
  exact ⟨strip_strip _, hempty⟩

lemma asOptionalStr_ofOption {value : Option String} (h : Stripped value) :
    D.asOptionalStr (D.ofOption value) = value := by
  cases value with
  | none => simp [asOptionalStr, ofOption, (D.isNone_iff D.null).mpr rfl]
  | some text =>
    obtain ⟨hstrip, hempty⟩ := h text rfl
    simp [asOptionalStr, ofOption, D.isNone_str, D.text_str, hstrip, hempty]

end Document

lemma mapM_toDict {α : Type} {load : V → Except SpecError α} {write : α → V} {values : List α}
    (h : ∀ value ∈ values, load (write value) = .ok value) :
    (values.map write).mapM load = .ok values := by
  induction values with
  | nil => rfl
  | cons value rest ih =>
    obtain ⟨hvalue, hrest⟩ := List.forall_mem_cons.mp h
    rw [List.map_cons, List.mapM_cons, hvalue, ih hrest]
    rfl

lemma Workflow.fromDict_toDict {w : Workflow V}
    (h : D.orElse w.params (D.dict []) = w.params) :
    Workflow.fromDict D (w.toDict D) = .ok w := by
  simp [Workflow.fromDict, Workflow.toDict, Document.required, Dict.get?, h]

lemma Factor.fromDict_toDict (f : Factor V) : Factor.fromDict D (f.toDict D) = .ok f := by
  by_cases hcurrent : D.isNone f.current = true
  · have hnull := (D.isNone_iff f.current).mp hcurrent
    simp [Factor.fromDict, Factor.toDict, Document.required, Document.present, Dict.get?,
      hcurrent, Function.comp_def, D.text_str, ← hnull]
  · simp [Factor.fromDict, Factor.toDict, Document.required, Document.present, Dict.get?,
      hcurrent, Function.comp_def, D.text_str]

lemma FactRequirement.fromDict_toDict (r : FactRequirement V) :
    normalizeRequirement D (r.toDict D) = .ok r := by
  simp [normalizeRequirement, FactRequirement.fromDict, FactRequirement.toDict,
    Document.required, Dict.get?, D.asStr_dict, D.text_str]

lemma RuleSpec.fromDict_toDict (r : RuleSpec V) : RuleSpec.fromDict D (r.toDict D) = .ok r := by
  have hfacts := mapM_toDict fun value (_ : value ∈ r.requiresFacts) =>
    FactRequirement.fromDict_toDict D value
  simp [RuleSpec.fromDict, RuleSpec.toDict, Document.required, Document.listUnder, Dict.get?,
    hfacts, D.text_str]

lemma MetricSpec.fromDict_toDict (m : MetricSpec V) :
    MetricSpec.fromDict D (m.toDict D) = .ok m := by
  simp [MetricSpec.fromDict, MetricSpec.toDict, Document.required, Dict.get?]

lemma ComparisonSpec.fromDict_toDict {c : ComparisonSpec V}
    (h : D.orElse c.loss (D.dict []) = c.loss) :
    ComparisonSpec.fromDict D (c.toDict D) = .ok c := by
  simp [ComparisonSpec.fromDict, ComparisonSpec.toDict, Document.required, Dict.get?, h]

lemma WriteupSpec.fromDict_toDict (w : WriteupSpec V) :
    WriteupSpec.fromDict D (w.toDict D) = .ok w := by
  simp [WriteupSpec.fromDict, WriteupSpec.toDict, Document.required, Document.listUnder,
    Dict.get?]

lemma StopSpec.fromDict_toDict (s : StopSpec V) : StopSpec.fromDict D (s.toDict D) = .ok s := by
  simp [StopSpec.fromDict, StopSpec.toDict, Dict.get?]

lemma AdaptSpec.fromDict_toDict (a : AdaptSpec V) :
    AdaptSpec.fromDict D (a.toDict D) = .ok a := by
  simp [AdaptSpec.fromDict, AdaptSpec.toDict, Dict.get?]

lemma SideEffects.fromDict_toDict (s : SideEffects) :
    SideEffects.fromDict D (s.toDict D) = .ok s := by
  simp [SideEffects.fromDict, SideEffects.toDict, Dict.get?, D.truthy_bool]

/-! ### Specs -/

lemma Document.get?_present {entries : List (String × Option V)}
    (hnodup : (entries.map Prod.fst).Nodup) :
    ∀ e ∈ entries, Dict.get? e.1 (Document.present entries) = e.2 := by
  rintro ⟨key, value⟩ he
  have hmem (v : V) : (key, v) ∈ Document.present entries ↔ value = some v := by
    simp only [Document.present, List.mem_filterMap, Option.map_eq_some_iff, Prod.mk.injEq]
    constructor
    · rintro ⟨⟨key', value'⟩, he', v', hv', rfl, rfl⟩
      have hsame := List.inj_on_of_nodup_map hnodup he he' rfl
      exact (Prod.mk.inj hsame).2.trans hv'
    · rintro rfl
      exact ⟨_, he, v, rfl, rfl, rfl⟩
  cases value with
  | none =>
    refine Dict.get?_eq_none.mpr ?_
    rintro ⟨key', v⟩ hkv rfl
    cases (hmem v).mp hkv
  | some v =>
    refine Dict.get?_of_mem ((hmem v).mpr rfl) ?_
    rintro ⟨key', v'⟩ hkv rfl
    exact (Option.some_inj.mp ((hmem v').mp hkv)).symm

namespace ExperimentSpec

/-- The keys of `entries`. -/
def entryKeys : List String :=
  ["name", "question", "version", "workflow", "factors", "design", "rules", "metrics", "stop",
    "adapt", "git_sha", "pricing_version", "seed", "artifact_kind", "intent", "side_effects",
    "repeatable", "sandboxed", "status", "supersedes", "superseded_by", "completed_at",
    "last_run_at", "results_pointer", "comparison", "writeup"]

lemma entries_keys (s : ExperimentSpec V) : (s.entries D).map Prod.fst = entryKeys := rfl

lemma entryKeys_nodup : entryKeys.Nodup := by decide +kernel

lemma entries_nodup (s : ExperimentSpec V) : ((s.entries D).map Prod.fst).Nodup := by
  rw [entries_keys]
  exact entryKeys_nodup

/-- What loading leaves of the values it gives a default or brings to one type. -/
structure Normal (s : ExperimentSpec V) : Prop where
  params : D.orElse s.workflow.params (D.dict []) = s.workflow.params
  loss : ∀ c ∈ s.comparison, D.orElse c.loss (D.dict []) = c.loss
  artifactKind : s.artifactKind ≠ ""
  intent : s.intent ≠ ""
  supersededBy : Document.Stripped s.supersededBy
  completedAt : Document.Stripped s.completedAt
  lastRunAt : Document.Stripped s.lastRunAt
  resultsPointer : Document.Stripped s.resultsPointer

lemma optional_map {α : Type} {load : V → Except SpecError α} {write : α → V} {value : Option α}
    (hload : ∀ a ∈ value, load (write a) = .ok a)
    (hwrite : ∀ a ∈ value, D.truthy (write a) = true) :
    optional D load ((value.map write).getD D.null) = .ok value := by
  cases value with
  | none => simp [optional, D.truthy_null]
  | some a => simp [optional, hwrite a rfl, hload a rfl, pure, Except.pure]

lemma fromDict_toDict_of_normal {s : ExperimentSpec V} (h : s.Normal D) :
    fromDict D (D.dict (s.toDict D)) = .ok s := by
  have hget := Document.get?_present (s.entries_nodup D)
  change ∀ e ∈ s.entries D, Dict.get? e.1 (s.toDict D) = e.2 at hget
  simp only [entries, List.forall_mem_cons, List.not_mem_nil, false_implies, implies_true,
    and_true] at hget
  have hworkflow := Workflow.fromDict_toDict D h.params
  have hfactors := mapM_toDict fun f (_ : f ∈ s.factors) => Factor.fromDict_toDict D f
  have hrules := mapM_toDict fun r (_ : r ∈ s.rules) => RuleSpec.fromDict_toDict D r
  have hmetrics := mapM_toDict fun m (_ : m ∈ s.metrics) => MetricSpec.fromDict_toDict D m
  have hcomparison : optional D (ComparisonSpec.fromDict D)
      ((s.comparison.map (ComparisonSpec.toDict D)).getD D.null) = .ok s.comparison :=
    optional_map D (fun c hc => ComparisonSpec.fromDict_toDict D (h.loss c hc))
      fun _ _ => D.truthy_dict _
  have hwriteup : optional D (WriteupSpec.fromDict D)
      ((s.writeup.map (WriteupSpec.toDict D)).getD D.null) = .ok s.writeup :=
    optional_map D (fun w _ => WriteupSpec.fromDict_toDict D w) fun _ _ => D.truthy_dict _
  have hstop : D.orElse (s.stop.toDict D) (D.dict []) = s.stop.toDict D :=
    D.orElse_dict_cons _ _ _
  have hadapt : D.orElse (s.adapt.toDict D) (D.dict []) = s.adapt.toDict D :=
    D.orElse_dict_cons _ _ _
  simp [fromDict, Document.required, Document.listUnder, hget, hworkflow, hfactors, hrules,
    hmetrics, hcomparison, hwriteup, hstop, hadapt, StopSpec.fromDict_toDict,
    AdaptSpec.fromDict_toDict, SideEffects.fromDict_toDict, D.sortsOthers_dict, D.text_str,
    D.truthy_bool, D.orElse_str_of_ne h.artifactKind, D.orElse_str_of_ne h.intent,
    D.asOptionalStr_ofOption h.supersededBy, D.asOptionalStr_ofOption h.completedAt,
    D.asOptionalStr_ofOption h.lastRunAt, D.asOptionalStr_ofOption h.resultsPointer]

end ExperimentSpec

lemma Workflow.params_of_fromDict {document : V} {w : Workflow V}
    (h : Workflow.fromDict D document = .ok w) : D.orElse w.params (D.dict []) = w.params := by
  simp only [Workflow.fromDict, bind_eq_ok, pure, Except.pure, Except.ok.injEq] at h
  obtain ⟨get, -, need, -, rfl⟩ := h
  exact D.orElse_orElse _ _

lemma ComparisonSpec.loss_of_fromDict {document : V} {c : ComparisonSpec V}
    (h : ComparisonSpec.fromDict D document = .ok c) : D.orElse c.loss (D.dict []) = c.loss := by
  simp only [ComparisonSpec.fromDict, bind_eq_ok, pure, Except.pure, Except.ok.injEq] at h
  obtain ⟨get, -, need, -, rfl⟩ := h
  exact D.orElse_orElse _ _

namespace ExperimentSpec

lemma optional_eq_ok {α : Type} {load : V → Except SpecError α} {document : V} {value : Option α}
    (h : optional D load document = .ok value) : ∀ a ∈ value, load document = .ok a := by
  rw [optional] at h
  split at h
  · simp only [bind_eq_ok, pure, Except.pure, Except.ok.injEq] at h
    obtain ⟨a, ha, rfl⟩ := h
    rintro _ ⟨⟩
    exact ha
  · cases h
    rintro _ ⟨⟩

lemma normal_of_fromDict {document : V} {s : ExperimentSpec V}
    (h : fromDict D document = .ok s) : s.Normal D := by
  simp only [fromDict, bind_eq_ok] at h
  obtain ⟨get, -, need, -, h⟩ := h
  split at h
  · cases h
  simp only [bind_eq_ok, pure, Except.pure, Except.ok.injEq] at h
  obtain ⟨workflow, hworkflow, _, -, factors, -, _, -, rules, -, _, -, metrics, -, comparison,
    hcomparison, writeup, -, stop, -, adapt, -, sideEffects, -, supersedes, -, rfl⟩ := h
  exact {
    params := Workflow.params_of_fromDict D hworkflow
    loss := fun c hc => ComparisonSpec.loss_of_fromDict D (optional_eq_ok D hcomparison c hc)
    artifactKind := D.text_orElse_ne_empty _ (by decide)
    intent := D.text_orElse_ne_empty _ (by decide)
    supersededBy := D.stripped_asOptionalStr _
    completedAt := D.stripped_asOptionalStr _
    lastRunAt := D.stripped_asOptionalStr _
    resultsPointer := D.stripped_asOptionalStr _ }

lemma fromDict_toDict {document : V} {s : ExperimentSpec V} (h : fromDict D document = .ok s) :
    fromDict D (D.dict (s.toDict D)) = .ok s :=
  fromDict_toDict_of_normal D (normal_of_fromDict D h)

/-! ### The definition of a spec -/

def definitionEntries (s : ExperimentSpec V) : List (String × Option V) :=
  [("name", some s.name),
    ("question", some s.question),
    ("version", some s.version),
    ("workflow", some (s.workflow.toDict D)),
    ("factors", some (D.list (s.factors.map (Factor.toDict D)))),
    ("design", some s.design),
    ("rules", some (D.list (s.rules.map (RuleSpec.toDict D)))),
    ("metrics", some (D.list (s.metrics.map (MetricSpec.toDict D)))),
    ("stop", some (s.stop.toDict D)),
    ("adapt", some (s.adapt.toDict D)),
    ("seed", some s.seed),
    ("artifact_kind", some (D.str s.artifactKind)),
    ("intent", some (D.str s.intent)),
    ("side_effects", some (s.sideEffects.toDict D)),
    ("repeatable", some (D.bool s.repeatable)),
    ("sandboxed", some (D.bool s.sandboxed)),
    ("comparison", s.comparison.map (ComparisonSpec.toDict D)),
    ("writeup", s.writeup.map (WriteupSpec.toDict D))]

lemma present_filter (p : String → Bool) (entries : List (String × Option V)) :
    (Document.present entries).filter (fun kv => p kv.1) =
      Document.present (entries.filter fun e => p e.1) := by
  induction entries with
  | nil => rfl
  | cons e rest ih =>
    obtain ⟨key, value⟩ := e
    rw [Document.present] at ih ⊢
    cases value with
    | none => by_cases h : p key = true <;> simp [h, ih, Document.present]
    | some v => by_cases h : p key = true <;> simp [h, ih, Document.present]

lemma canonicalSpecDefinition_eq (s : ExperimentSpec V) :
    s.canonicalSpecDefinition D = Document.present (s.definitionEntries D) := by
  have hfilter := present_filter (fun key => decide (key ∉ revisionVolatileKeys)) (s.entries D)
  rw [canonicalSpecDefinition, toDict, hfilter]
  simp [entries, definitionEntries, revisionVolatileKeys]

/-- Only volatile keys differ between the two documents. -/
def VolatileChange (document document' : V) : Prop :=
  ∀ get get', D.mapping document = some get → D.mapping document' = some get' →
    ∀ key, key ∉ revisionVolatileKeys → get key = get' key

lemma fields_eq_ok {document : V} {get : String → Option V} (h : D.fields document = .ok get) :
    D.mapping document = some get := by
  rw [Document.fields] at h
  cases hmapping : D.mapping document with
  | none => simp [hmapping] at h
  | some get' =>
    simp only [hmapping, Except.ok.injEq] at h
    rw [h]

lemma required_eq_ok {owner : String} {keys : List String} {get : String → Option V}
    {need : String → V} (h : D.required owner keys get = .ok need) (key : String) :
    need key = (get key).getD D.null := by
  rw [Document.required] at h
  split at h
  · cases h
    rfl
  · cases h

lemma canonical_of_volatileChange {document document' : V} {s s' : ExperimentSpec V}
    (hchange : VolatileChange D document document') (h : fromDict D document = .ok s)
    (h' : fromDict D document' = .ok s') :
    s.canonicalSpecDefinition D = s'.canonicalSpecDefinition D := by
  simp only [fromDict, bind_eq_ok] at h h'
  obtain ⟨get, hget, need, hneed, h⟩ := h
  obtain ⟨get', hget', need', hneed', h'⟩ := h'
  have hkey := hchange get get' (fields_eq_ok D hget) (fields_eq_ok D hget')
  have hneed := required_eq_ok D hneed
  have hneed' := required_eq_ok D hneed'
  split at h
  · cases h
  split at h'
  · cases h'
  simp only [hneed, hneed', Document.listUnder, bind_eq_ok, pure, Except.pure, Except.ok.injEq,
    ← hkey "name" (by decide), ← hkey "question" (by decide), ← hkey "version" (by decide),
    ← hkey "workflow" (by decide), ← hkey "factors" (by decide), ← hkey "design" (by decide),
    ← hkey "rules" (by decide), ← hkey "metrics" (by decide), ← hkey "comparison" (by decide),
    ← hkey "writeup" (by decide), ← hkey "stop" (by decide), ← hkey "adapt" (by decide),
    ← hkey "seed" (by decide), ← hkey "artifact_kind" (by decide), ← hkey "intent" (by decide),
    ← hkey "side_effects" (by decide), ← hkey "repeatable" (by decide),
    ← hkey "sandboxed" (by decide)] at h h'
  obtain ⟨workflow, hworkflow, fs, hfs, factors, hfactors, rs, hrs, rules, hrules, ms, hms, metrics,
    hmetrics, comparison, hcomparison, writeup, hwriteup, stop, hstop, adapt, hadapt, sideEffects,
    hsideEffects, supersedes, -, rfl⟩ := h
  simp only [hworkflow, hfs, hfactors, hrs, hrules, hms, hmetrics, hcomparison, hwriteup, hstop,
    hadapt, hsideEffects, Except.ok.injEq, exists_eq_left'] at h'
  obtain ⟨supersedes', -, rfl⟩ := h'
  rw [canonicalSpecDefinition_eq, canonicalSpecDefinition_eq]
  rfl

end ExperimentSpec

end AgenticDynamics.Experiment.Loaded
