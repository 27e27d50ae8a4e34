import AgenticDynamics.Library.JsonText
import AgenticDynamics.Experiment.SpecRoundTrip

/-!
# The identity of a revision

Specs whose fields hold JSON values are revisions of one definition when they agree in every field
that is not volatile, up to the order of the keys of the objects in them. The digest tells the
definitions apart.
-/

namespace AgenticDynamics.Experiment.Loaded

open Python Json

/-! ### JSON documents -/

/-- JSON values, given `str` of those that are no strings. -/
def jsonDocument (repr : Json → String) (hrepr : ∀ value, repr value ≠ "") : Document Json where
  null := .null
  bool := .bool
  str := .str
  list := .arr
  dict := .obj
  truthy := Json.truthy
  text
    | .str s => s
    | value  => repr value
  isNone
    | .null => true
    | _     => false
  asStr
    | .str s => some s
    | _      => none
  items value := value.toList.toOption
  mapping
    | .obj fields => some fun key => Dict.get? key fields
    | _           => none
  sortsOthers _ _ := true
  truthy_null := rfl
  truthy_str _ := rfl
  truthy_bool _ := rfl
  truthy_list _ := rfl
  truthy_dict _ := rfl
  text_str _ := rfl
  text_ne_empty value h := by
    cases value with
    | str s => simpa [Json.truthy] using h
    | _ => exact hrepr _
  isNone_iff value := by cases value <;> simp
  isNone_str _ := rfl
  isNone_list _ := rfl
  asStr_str _ := rfl
  asStr_list _ := rfl
  items_list _ := rfl
  mapping_dict _ := rfl
  asStr_dict _ := rfl
  sortsOthers_dict _ _ := rfl

/-- Both have no value, or their values are the same. -/
abbrev SameEntry (e e' : String × Option Json) : Prop := Option.Rel Same e.2 e'.2

lemma get?_present_new {key : String} {entries : List (String × Option Json)}
    (hkey : key ∉ entries.map Prod.fst) : Dict.get? key (Document.present entries) = none := by
  refine Dict.get?_eq_none.mpr ?_
  rintro ⟨k, v⟩ hkv rfl
  obtain ⟨e, he, hv⟩ := List.mem_filterMap.mp hkv
  obtain ⟨v', -, heq⟩ := Option.map_eq_some_iff.mp hv
  exact hkey (List.mem_map.mpr ⟨e, he, (Prod.mk.inj heq).1⟩)

lemma get?_present_cons {key : String} {value : Option Json} {rest : List (String × Option Json)}
    (hkey : key ∉ rest.map Prod.fst) (key' : String) :
    Dict.get? key' (Document.present ((key, value) :: rest)) =
      if key = key' then value else Dict.get? key' (Document.present rest) := by
  have hnone := get?_present_new hkey
  cases value with
  | none =>
    by_cases h : key = key'
    · rw [if_pos h, ← h]
      exact hnone
    · rw [if_neg h]
      rfl
  | some v => by_cases h : key = key' <;> simp [Document.present, Dict.get?, h]

lemma map_sortKeys_eq_iff {a b : Option Json} :
    a.map sortKeys = b.map sortKeys ↔ Option.Rel Same a b := by
  cases a with
  | none => cases b <;> simp
  | some v => cases b <;> simp [Same]

lemma present_nodup {entries : List (String × Option Json)}
    (h : (entries.map Prod.fst).Nodup) : ((Document.present entries).map Prod.fst).Nodup := by
  refine h.sublist ?_
  induction entries with
  | nil => exact List.Sublist.refl _
  | cons e rest ih =>
    obtain ⟨key, value⟩ := e
    have ih := ih (List.nodup_cons.mp h).2
    cases value with
    | none => exact ih.cons _
    | some v => exact ih.cons_cons _

lemma same_present_iff {entries entries' : List (String × Option Json)}
    (hkeys : entries.map Prod.fst = entries'.map Prod.fst)
    (hnodup : (entries.map Prod.fst).Nodup) :
    Same (.obj (Document.present entries)) (.obj (Document.present entries')) ↔
      List.Forall₂ SameEntry entries entries' := by
  rw [same_obj_iff (present_nodup hnodup) (present_nodup (hkeys ▸ hnodup))]
  induction entries generalizing entries' with
  | nil =>
    rw [List.map_nil, eq_comm, List.map_eq_nil_iff] at hkeys
    simp [hkeys]
  | cons e rest ih =>
    cases entries' with
    | nil => simp at hkeys
    | cons e' rest' =>
      obtain ⟨key, value⟩ := e
      obtain ⟨key', value'⟩ := e'
      obtain ⟨rfl, hrest⟩ : key = key' ∧ rest.map Prod.fst = rest'.map Prod.fst := by
        simpa using hkeys
      obtain ⟨hnew, hnodup⟩ := List.nodup_cons.mp hnodup
      have hnew' : key ∉ rest'.map Prod.fst := hrest ▸ hnew
      rw [List.forall₂_cons, ← ih hrest hnodup, SameEntry, ← map_sortKeys_eq_iff]
      simp only [get?_present_cons hnew, get?_present_cons hnew']
      constructor
      · intro h
        refine ⟨by simpa using h key, fun k => ?_⟩
        by_cases hk : key = k
        · rw [← hk, get?_present_new hnew, get?_present_new hnew']
        · simpa [hk] using h k
      · rintro ⟨hvalue, h⟩ k
        by_cases hk : key = k
        · simpa [hk] using hvalue
        · simpa [hk] using h k

/-! ### The same content -/

def Workflow.Alike (w w' : Workflow Json) : Prop := Same w.kind w'.kind ∧ Same w.params w'.params

def Factor.Alike (f f' : Factor Json) : Prop :=
  Same f.name f'.name ∧ f.levels = f'.levels ∧ Same f.active f'.active ∧ Same f.current f'.current

def FactRequirement.Alike (r r' : FactRequirement Json) : Prop :=
  r.fact = r'.fact ∧ r.scope = r'.scope ∧ Same r.maxAgeSeconds r'.maxAgeSeconds ∧
    r.minAuthority = r'.minAuthority ∧ r.onMissing = r'.onMissing ∧
    r.onConflict = r'.onConflict ∧ Same r.valueType r'.valueType

def RuleSpec.Alike (r r' : RuleSpec Json) : Prop :=
  Same r.name r'.name ∧ Same r.plane r'.plane ∧ Same r.evidenceClass r'.evidenceClass ∧
    List.Forall₂ Same r.requires r'.requires ∧ List.Forall₂ Same r.produces r'.produces ∧
    List.Forall₂ FactRequirement.Alike r.requiresFacts r'.requiresFacts ∧
    r.decisionType = r'.decisionType

def MetricSpec.Alike (m m' : MetricSpec Json) : Prop :=
  Same m.name m'.name ∧ Same m.agg m'.agg ∧ Same m.over' m'.over'

def ComparisonSpec.Alike (c c' : ComparisonSpec Json) : Prop :=
  Same c.kind c'.kind ∧ Same c.armFactor c'.armFactor ∧ Same c.loss c'.loss

def WriteupSpec.Alike (w w' : WriteupSpec Json) : Prop :=
  Same w.format w'.format ∧ List.Forall₂ Same w.sections w'.sections

def StopSpec.Alike (s s' : StopSpec Json) : Prop :=
  Same s.budgetUsd s'.budgetUsd ∧ Same s.maxAttempts s'.maxAttempts ∧
    Same s.uncertaintyThreshold s'.uncertaintyThreshold

def AdaptSpec.Alike (a a' : AdaptSpec Json) : Prop :=
  Same a.strategy a'.strategy ∧ Same a.selection a'.selection

/-- Two specs agree in every field that is not volatile: in the fields that hold values up to the
order of the keys of objects, and in the others altogether. -/
structure ExperimentSpec.SameDefinition (s s' : ExperimentSpec Json) : Prop where
  name : Same s.name s'.name
  question : Same s.question s'.question
  version : Same s.version s'.version
  workflow : s.workflow.Alike s'.workflow
  factors : List.Forall₂ Factor.Alike s.factors s'.factors
  design : Same s.design s'.design
  rules : List.Forall₂ RuleSpec.Alike s.rules s'.rules
  metrics : List.Forall₂ MetricSpec.Alike s.metrics s'.metrics
  comparison : Option.Rel ComparisonSpec.Alike s.comparison s'.comparison
  writeup : Option.Rel WriteupSpec.Alike s.writeup s'.writeup
  stop : s.stop.Alike s'.stop
  adapt : s.adapt.Alike s'.adapt
  seed : Same s.seed s'.seed
  artifactKind : s.artifactKind = s'.artifactKind
  intent : s.intent = s'.intent
  sideEffects : s.sideEffects = s'.sideEffects
  repeatable : s.repeatable = s'.repeatable
  sandboxed : s.sandboxed = s'.sandboxed

lemma same_dict_iff {fields fields' : Dict Json} (hkeys : fields.map Prod.fst = fields'.map Prod.fst)
    (hnodup : (fields.map Prod.fst).Nodup) : Same (.obj fields) (.obj fields') ↔
      List.Forall₂ (fun kv kv' => Same kv.2 kv'.2) fields fields' := by
  have hpresent (d : Dict Json) :
      Document.present (d.map fun kv => (kv.1, some kv.2)) = d := by
    rw [Document.present, List.filterMap_map]
    exact List.filterMap_some
  have hfst (d : Dict Json) : (d.map fun kv => (kv.1, some kv.2)).map Prod.fst = d.map Prod.fst := by
    rw [List.map_map]
    rfl
  have hkeys' : (fields.map fun kv => (kv.1, some kv.2)).map Prod.fst =
      (fields'.map fun kv => (kv.1, some kv.2)).map Prod.fst := by rw [hfst, hfst, hkeys]
  have h := same_present_iff hkeys' (by rwa [hfst])
  rw [hpresent, hpresent, List.forall₂_map_left_iff, List.forall₂_map_right_iff] at h
  simpa [SameEntry] using h

lemma same_strings_iff {names names' : List String} :
    Same (.arr (names.map .str)) (.arr (names'.map .str)) ↔ names = names' := by
  rw [same_arr_iff, List.forall₂_map_left_iff, List.forall₂_map_right_iff]
  simp [List.forall₂_eq_eq_eq]

lemma same_parts_iff {α : Type} {write : α → Json} {R : α → α → Prop}
    (h : ∀ a b, Same (write a) (write b) ↔ R a b) (parts parts' : List α) :
    Same (.arr (parts.map write)) (.arr (parts'.map write)) ↔ List.Forall₂ R parts parts' := by
  rw [same_arr_iff, List.forall₂_map_left_iff, List.forall₂_map_right_iff]
  simp only [h]

lemma same_optional_iff {α : Type} {write : α → Json} {R : α → α → Prop}
    (h : ∀ a b, Same (write a) (write b) ↔ R a b) (part part' : Option α) :
    Option.Rel Same (part.map write) (part'.map write) ↔ Option.Rel R part part' := by
  cases part with
  | none => cases part' <;> simp
  | some a => cases part' <;> simp [h]

section Content

variable (repr : Json → String) (hrepr : ∀ value, repr value ≠ "")

lemma Workflow.same_toDict (w w' : Workflow Json) :
    Same (w.toDict (jsonDocument repr hrepr)) (w'.toDict (jsonDocument repr hrepr)) ↔
      w.Alike w' := by
  refine Iff.trans (same_dict_iff rfl (by simp)) ?_
  simp [Workflow.Alike]

lemma same_unless_null_iff (a b : Json) :
    Option.Rel Same (if (jsonDocument repr hrepr).isNone a then none else some a)
      (if (jsonDocument repr hrepr).isNone b then none else some b) ↔ Same a b := by
  cases a <;> cases b <;> simp [jsonDocument, Same, sortKeys]

lemma Factor.same_toDict (f f' : Factor Json) :
    Same (f.toDict (jsonDocument repr hrepr)) (f'.toDict (jsonDocument repr hrepr)) ↔
      f.Alike f' := by
  refine Iff.trans (same_present_iff rfl (by simp)) ?_
  simp only [List.forall₂_cons, SameEntry, Option.rel_some_some, same_unless_null_iff,
    List.forall₂_nil_left_iff, and_true]
  have hlevels : Same ((jsonDocument repr hrepr).list (f.levels.map (jsonDocument repr hrepr).str))
      ((jsonDocument repr hrepr).list (f'.levels.map (jsonDocument repr hrepr).str)) ↔
        f.levels = f'.levels := same_strings_iff
  rw [hlevels, Factor.Alike]

lemma FactRequirement.same_toDict (r r' : FactRequirement Json) :
    Same (r.toDict (jsonDocument repr hrepr)) (r'.toDict (jsonDocument repr hrepr)) ↔
      r.Alike r' := by
  refine Iff.trans (same_dict_iff rfl (by simp)) ?_
  simp [FactRequirement.Alike, jsonDocument]

lemma RuleSpec.same_toDict (r r' : RuleSpec Json) :
    Same (r.toDict (jsonDocument repr hrepr)) (r'.toDict (jsonDocument repr hrepr)) ↔
      r.Alike r' := by
  refine Iff.trans (same_dict_iff rfl (by simp)) ?_
  have hfacts : Same (.arr (r.requiresFacts.map (FactRequirement.toDict (jsonDocument repr hrepr))))
      (.arr (r'.requiresFacts.map (FactRequirement.toDict (jsonDocument repr hrepr)))) ↔
        List.Forall₂ FactRequirement.Alike r.requiresFacts r'.requiresFacts :=
    same_parts_iff (FactRequirement.same_toDict repr hrepr) _ _
  simp [RuleSpec.Alike, jsonDocument] at hfacts ⊢
  simp [hfacts, same_arr_iff]

lemma MetricSpec.same_toDict (m m' : MetricSpec Json) :
    Same (m.toDict (jsonDocument repr hrepr)) (m'.toDict (jsonDocument repr hrepr)) ↔
      m.Alike m' := by
  refine Iff.trans (same_dict_iff rfl (by simp)) ?_
  simp [MetricSpec.Alike]

lemma ComparisonSpec.same_toDict (c c' : ComparisonSpec Json) :
    Same (c.toDict (jsonDocument repr hrepr)) (c'.toDict (jsonDocument repr hrepr)) ↔
      c.Alike c' := by
  refine Iff.trans (same_dict_iff rfl (by simp)) ?_
  simp [ComparisonSpec.Alike]

lemma WriteupSpec.same_toDict (w w' : WriteupSpec Json) :
    Same (w.toDict (jsonDocument repr hrepr)) (w'.toDict (jsonDocument repr hrepr)) ↔
      w.Alike w' := by
  refine Iff.trans (same_dict_iff rfl (by simp)) ?_
  simp [WriteupSpec.Alike, jsonDocument, same_arr_iff]

lemma StopSpec.same_toDict (s s' : StopSpec Json) :
    Same (s.toDict (jsonDocument repr hrepr)) (s'.toDict (jsonDocument repr hrepr)) ↔
      s.Alike s' := by
  refine Iff.trans (same_dict_iff rfl (by simp)) ?_
  simp [StopSpec.Alike]

lemma AdaptSpec.same_toDict (a a' : AdaptSpec Json) :
    Same (a.toDict (jsonDocument repr hrepr)) (a'.toDict (jsonDocument repr hrepr)) ↔
      a.Alike a' := by
  refine Iff.trans (same_dict_iff rfl (by simp)) ?_
  simp [AdaptSpec.Alike]

lemma SideEffects.same_toDict (s s' : SideEffects) :
    Same (s.toDict (jsonDocument repr hrepr)) (s'.toDict (jsonDocument repr hrepr)) ↔ s = s' := by
  refine Iff.trans (same_dict_iff rfl (by simp)) ?_
  obtain ⟨a, b⟩ := s
  obtain ⟨a', b'⟩ := s'
  simp [jsonDocument]

@[simp] lemma jsonDocument_list (values : List Json) :
    (jsonDocument repr hrepr).list values = .arr values := rfl

@[simp] lemma jsonDocument_str (s : String) : (jsonDocument repr hrepr).str s = .str s := rfl

@[simp] lemma jsonDocument_bool (b : Bool) : (jsonDocument repr hrepr).bool b = .bool b := rfl

namespace ExperimentSpec

/-- The keys of `definitionEntries`. -/
def definitionKeys : List String :=
  ["name", "question", "version", "workflow", "factors", "design", "rules", "metrics", "stop",
    "adapt", "seed", "artifact_kind", "intent", "side_effects", "repeatable", "sandboxed",
    "comparison", "writeup"]

lemma definitionKeys_nodup : definitionKeys.Nodup := by decide +kernel

lemma definitionEntries_keys {V : Type} (D : Document V) (s : ExperimentSpec V) :
    (s.definitionEntries D).map Prod.fst = definitionKeys := rfl

lemma same_definition_iff (s s' : ExperimentSpec Json) :
    Same (.obj (s.canonicalSpecDefinition (jsonDocument repr hrepr)))
      (.obj (s'.canonicalSpecDefinition (jsonDocument repr hrepr))) ↔ s.SameDefinition s' := by
  rw [canonicalSpecDefinition_eq, canonicalSpecDefinition_eq,
    same_present_iff (by rw [definitionEntries_keys, definitionEntries_keys])
      (by rw [definitionEntries_keys]; exact definitionKeys_nodup)]
  have hfactors := same_parts_iff (Factor.same_toDict repr hrepr)
  have hrules := same_parts_iff (RuleSpec.same_toDict repr hrepr)
  have hmetrics := same_parts_iff (MetricSpec.same_toDict repr hrepr)
  have hcomparison := same_optional_iff (ComparisonSpec.same_toDict repr hrepr)
  have hwriteup := same_optional_iff (WriteupSpec.same_toDict repr hrepr)
  simp only [definitionEntries, List.forall₂_cons, SameEntry, Option.rel_some_some,
    List.forall₂_nil_left_iff, and_true, jsonDocument_list, jsonDocument_str, jsonDocument_bool,
    same_str_iff, same_bool_iff, Workflow.same_toDict, StopSpec.same_toDict, AdaptSpec.same_toDict,
    SideEffects.same_toDict, hfactors, hrules, hmetrics, hcomparison, hwriteup]
  constructor
  · rintro ⟨name, question, version, workflow, factors, design, rules, metrics, stop, adapt, seed,
      artifactKind, intent, sideEffects, repeatable, sandboxed, comparison, writeup⟩
    exact ⟨name, question, version, workflow, factors, design, rules, metrics, comparison, writeup,
      stop, adapt, seed, artifactKind, intent, sideEffects, repeatable, sandboxed⟩
  · intro h
    exact ⟨h.name, h.question, h.version, h.workflow, h.factors, h.design, h.rules, h.metrics,
      h.stop, h.adapt, h.seed, h.artifactKind, h.intent, h.sideEffects, h.repeatable, h.sandboxed,
      h.comparison, h.writeup⟩

end ExperimentSpec

end Content

/-- The specs differ in volatile fields only. -/
def ExperimentSpec.VolatileEdit {V : Type} (s s' : ExperimentSpec V) : Prop :=
  s' = { s with
    gitSha := s'.gitSha
    pricingVersion := s'.pricingVersion
    status := s'.status
    supersedes := s'.supersedes
    supersededBy := s'.supersededBy
    completedAt := s'.completedAt
    lastRunAt := s'.lastRunAt
    resultsPointer := s'.resultsPointer }

lemma ExperimentSpec.canonical_of_volatileEdit {V : Type} (D : Document V)
    {s s' : ExperimentSpec V} (h : s.VolatileEdit s') :
    s.canonicalSpecDefinition D = s'.canonicalSpecDefinition D := by
  rw [h, canonicalSpecDefinition_eq, canonicalSpecDefinition_eq]
  rfl

open ExperimentSpec

lemma workflowRevisionId_json (ft : FloatText) (sha256 : String → String) (repr : Json → String)
    (hrepr : ∀ value, repr value ≠ "") (s : ExperimentSpec Json) :
    s.workflowRevisionId (jsonDocument repr hrepr) (fun value => .ok (dumps ft value)) sha256 =
      .ok (sha256 (dumps ft (.obj (s.canonicalSpecDefinition (jsonDocument repr hrepr))))) := rfl

/-- A loaded spec is what its document is loaded as; its revision stays when volatile keys of its
document, or volatile fields of it, change; and specs of JSON values are one revision exactly when
they have the same definition. -/
theorem workflow_revision_identity {V : Type} (D : Document V)
    (dumps' : V → Except String String) {sha256 : String → String}
    (hsha256 : Function.Injective sha256) (ft : FloatText) {repr : Json → String}
    (hrepr : ∀ value, repr value ≠ "") :
    (∀ document s, fromDict D document = .ok s → fromDict D (D.dict (s.toDict D)) = .ok s) ∧
    (∀ document document' s s', VolatileChange D document document' →
      fromDict D document = .ok s → fromDict D document' = .ok s' →
        s.workflowRevisionId D dumps' sha256 = s'.workflowRevisionId D dumps' sha256) ∧
    (∀ s s' : ExperimentSpec V, s.VolatileEdit s' →
      s.workflowRevisionId D dumps' sha256 = s'.workflowRevisionId D dumps' sha256) ∧
    ∀ s s' : ExperimentSpec Json,
      s.workflowRevisionId (jsonDocument repr hrepr) (fun value => .ok (dumps ft value)) sha256 =
        s'.workflowRevisionId (jsonDocument repr hrepr) (fun value => .ok (dumps ft value)) sha256 ↔
      s.SameDefinition s' := by
  refine ⟨fun _ _ h => fromDict_toDict D h, fun _ _ s s' hchange h h' => ?_, fun s s' hedit => ?_,
    fun s s' => ?_⟩
  · rw [workflowRevisionId, workflowRevisionId, canonical_of_volatileChange D hchange h h']
  · rw [workflowRevisionId, workflowRevisionId, canonical_of_volatileEdit D hedit]
  · rw [workflowRevisionId_json, workflowRevisionId_json, Except.ok.injEq, hsha256.eq_iff,
      dumps_eq_iff, same_definition_iff]

/-- A task without factors, rules and metrics. -/
def plainSpec (params : Dict Json) : ExperimentSpec Json where
  name := .str "plain"
  question := .str ""
  version := .int 1
  workflow := ⟨.str "task", .obj params⟩
  factors := []
  design := .str "factorial"
  rules := []
  metrics := []
  comparison := none
  writeup := none
  stop := ⟨.null, .null, .null⟩
  adapt := ⟨.str "manual", .str "highest_regret"⟩
  gitSha := .str ""
  pricingVersion := .str ""
  seed := .null
  artifactKind := "experiment"
  intent := "measure"
  sideEffects := ⟨false, false⟩
  repeatable := true
  sandboxed := false
  status := ""
  supersedes := []
  supersededBy := none
  completedAt := none
  lastRunAt := none
  resultsPointer := none

/-- Documents in which no value but a string is turned into a text. -/
def plainDocument : Document Json := jsonDocument (fun _ => "value") fun _ => by simp

/-- The order of two parameters makes no other revision, a value does. -/
theorem workflow_revision_identity_plain :
    let revision := fun params => (plainSpec params).workflowRevisionId plainDocument
      (fun value => .ok (dumps .fraction value)) id
    revision [("a", .int 1), ("b", .int 2)] = revision [("b", .int 2), ("a", .int 1)] ∧
      revision [("a", .int 1)] ≠ revision [("a", .int 2)] := by
  have hrepr : ∀ value : Json, (fun _ => "value") value ≠ "" := fun _ => by simp
  have hidentity := (workflow_revision_identity plainDocument
    (fun value => .ok (dumps .fraction value)) Function.injective_id .fraction hrepr).2.2.2
  refine ⟨(hidentity _ _).mpr ?_, fun h => ?_⟩
  · have hparams : Same (.obj [("a", .int 1), ("b", .int 2)])
        (.obj [("b", .int 2), ("a", .int 1)]) := by
      simp [Same, sortKeys, sortFields, insertField]
    exact ⟨rfl, rfl, rfl, ⟨rfl, hparams⟩, .nil, rfl, .nil, .nil, .none, .none, ⟨rfl, rfl, rfl⟩,
      ⟨rfl, rfl⟩, rfl, rfl, rfl, rfl, rfl, rfl⟩
  · have hparams := ((hidentity _ _).mp h).workflow.2
    simp [plainSpec, Same, sortKeys, sortFields, insertField] at hparams

end AgenticDynamics.Experiment.Loaded
