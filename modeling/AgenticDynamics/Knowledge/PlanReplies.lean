import AgenticDynamics.Library.JsonReader
import AgenticDynamics.Knowledge.PromptConstruction

/-!
# Plans as replies

The JSON object a model writes for a plan. Read as a reply it is that plan.
-/

namespace AgenticDynamics.Knowledge.PromptPlan

open Python Python.Json

/-! ### The object -/

def texts (items : List String) : Json := .arr (items.map .str)

def constraintJson (c : HardConstraint) : Json :=
  .obj [("text", .str c.text), ("source", .str c.source), ("citation", .str c.citation)]

def targetJson (t : RelevantTarget) : Json :=
  .obj [("path", .str t.path), ("symbols", texts t.symbols), ("evidence_ids", texts t.evidenceIds)]

def claimJson (c : EvidenceClaim) : Json :=
  .obj [("claim", .str c.claim), ("evidence_ids", texts c.evidenceIds),
    ("authority", .str c.authority)]

def checkJson (a : AcceptanceCheck) : Json :=
  .obj [("check", .str a.check), ("source", .str a.source)]

/-- The plan as the schema of the constructor prompt asks for it. -/
def planFields (plan : Plan) : Dict Json :=
  [("schema_version", .str plan.schemaVersion),
    ("task_intent", .str plan.taskIntent),
    ("raw_work_item_hash", .str plan.rawWorkItemHash),
    ("hard_constraints", .arr (plan.hardConstraints.map constraintJson)),
    ("relevant_targets", .arr (plan.relevantTargets.map targetJson)),
    ("evidence_claims", .arr (plan.evidenceClaims.map claimJson)),
    ("conflicts_and_unknowns", texts plan.conflictsAndUnknowns),
    ("acceptance_checks", .arr (plan.acceptanceChecks.map checkJson)),
    ("allowed_tools", texts plan.allowedTools),
    ("executor_instructions", .str plan.executorInstructions)]

section Reading

variable (host : Host)

lemma textOf_str {fields : Dict Json} {key s : String}
    (h : Dict.get? key fields = some (.str s)) : textOf host fields key = s := by
  simp [textOf, h, Json.text]

lemma itemsOf_arr {fields : Dict Json} {key : String} {items : List Json}
    (h : Dict.get? key fields = some (.arr items)) : itemsOf fields key = .ok items := by
  simp [itemsOf, h, Json.toList]

lemma textsOf_texts {fields : Dict Json} {key : String} {items : List String}
    (h : Dict.get? key fields = some (texts items)) : textsOf host fields key = .ok items := by
  rw [textsOf, itemsOf_arr h]
  simp [Except.map, Json.text, Function.comp_def]

lemma constraintOf_json (c : HardConstraint) : constraintOf host (constraintJson c) = c := rfl

lemma checkOf_json (a : AcceptanceCheck) : checkOf host (checkJson a) = a := rfl

lemma targetOf_json (t : RelevantTarget) : targetOf host (targetJson t) = .ok t := by
  simp only [targetOf, targetJson, fieldsOf]
  rw [textsOf_texts host rfl, textsOf_texts host rfl]
  rfl

lemma claimOf_json (c : EvidenceClaim) : claimOf host (claimJson c) = .ok c := by
  simp only [claimOf, claimJson, fieldsOf]
  rw [textsOf_texts host rfl]
  rfl

lemma mapM_json {α : Type} {read : Json → Except Fault α} {write : α → Json}
    (h : ∀ a, read (write a) = .ok a) (items : List α) :
    (items.map write).mapM read = .ok items := by
  induction items with
  | nil => rfl
  | cons a items ih => simp [List.mapM_cons, h, ih, bind, Except.bind, pure, Except.pure]

theorem planFromDict_planFields (plan : Plan) : planFromDict host (planFields plan) = .ok plan := by
  have hconstraints : itemsOf (planFields plan) "hard_constraints" =
      .ok (plan.hardConstraints.map constraintJson) := itemsOf_arr rfl
  have htargets : itemsOf (planFields plan) "relevant_targets" =
      .ok (plan.relevantTargets.map targetJson) := itemsOf_arr rfl
  have hclaims : itemsOf (planFields plan) "evidence_claims" =
      .ok (plan.evidenceClaims.map claimJson) := itemsOf_arr rfl
  have hconflicts : textsOf host (planFields plan) "conflicts_and_unknowns" =
      .ok plan.conflictsAndUnknowns := textsOf_texts host rfl
  have hchecks : itemsOf (planFields plan) "acceptance_checks" =
      .ok (plan.acceptanceChecks.map checkJson) := itemsOf_arr rfl
  have htools : textsOf host (planFields plan) "allowed_tools" = .ok plan.allowedTools :=
    textsOf_texts host rfl
  simp only [planFromDict, bind, Except.bind, hconstraints, htargets, hclaims, hconflicts, hchecks,
    htools, mapM_json (targetOf_json host), mapM_json (claimOf_json host), List.map_map,
    Function.comp_def, constraintOf_json, checkOf_json, List.map_id_fun']
  rfl

end Reading

/-! ### The text -/

lemma distinctItems_map {α : Type} {write : α → Json} (h : ∀ a, Distinct (write a))
    (items : List α) : DistinctItems (items.map write) := by
  induction items with
  | nil            => trivial
  | cons a items ih => exact ⟨h a, ih⟩

lemma distinct_texts (items : List String) : Distinct (texts items) :=
  distinctItems_map (fun s => show Distinct (.str s) from trivial) items

lemma distinct_constraint (c : HardConstraint) : Distinct (constraintJson c) :=
  ⟨by simp, trivial, trivial, trivial, trivial⟩

lemma distinct_target (t : RelevantTarget) : Distinct (targetJson t) :=
  ⟨by simp, trivial, distinct_texts _, distinct_texts _, trivial⟩

lemma distinct_claim (c : EvidenceClaim) : Distinct (claimJson c) :=
  ⟨by simp, trivial, distinct_texts _, trivial, trivial⟩

lemma distinct_check (a : AcceptanceCheck) : Distinct (checkJson a) :=
  ⟨by simp, trivial, trivial, trivial⟩

theorem distinct_planFields (plan : Plan) : Distinct (.obj (planFields plan)) := by
  refine ⟨by simp [planFields], ?_⟩
  exact ⟨trivial, trivial, trivial, distinctItems_map distinct_constraint _,
    distinctItems_map distinct_target _, distinctItems_map distinct_claim _, distinct_texts _,
    distinctItems_map distinct_check _, distinct_texts _, trivial, trivial⟩

/-- `json.dumps(fields, indent=2)` of the object of a plan, which has no floats. -/
def planReply (plan : Plan) : String :=
  String.ofList (pretty FloatReader.fraction 0 (.obj (planFields plan)))

/-- `json.loads` reads the text that `json.dumps` writes for the object of a plan. -/
def LoadsPlans (host : Host) : Prop :=
  ∀ plan, host.loads (planReply plan) = .ok (.obj (planFields plan))

lemma read_planReply (plan : Plan) :
    read FloatReader.fraction (planReply plan).toList = some (.obj (planFields plan)) := by
  rw [planReply, String.toList_ofList]
  exact read_pretty (distinct_planFields plan) 0

lemma pretty_obj_ends (key : String) (value : Json) (fields : Dict Json) :
    ∃ inner, pretty FloatReader.fraction 0 (.obj ((key, value) :: fields)) =
      '\x7b' :: (inner ++ ['\x7d']) := by
  refine ⟨newline 1 ++ (Json.quote key ++ (':' :: ' ' :: (pretty FloatReader.fraction 1 value ++
    (prettyFields FloatReader.fraction 1 fields ++ newline 0)))), ?_⟩
  simp [pretty]

lemma planReply_ends (plan : Plan) :
    ∃ inner, planReply plan = String.ofList ('\x7b' :: (inner ++ ['\x7d'])) := by
  obtain ⟨inner, h⟩ := pretty_obj_ends "schema_version" (.str plan.schemaVersion) _
  exact ⟨inner, congrArg String.ofList h⟩

lemma strip_braced (inner : List Char) :
    strip (String.ofList ('\x7b' :: (inner ++ ['\x7d']))) =
      String.ofList ('\x7b' :: (inner ++ ['\x7d'])) := by
  have hopen : isSpace '\x7b' = false := by decide
  have hclose : isSpace '\x7d' = false := by decide
  simp [strip, hopen, hclose]

lemma unfenced_planReply (plan : Plan) : unfenced (planReply plan) = planReply plan := by
  obtain ⟨inner, h⟩ := planReply_ends plan
  have hfence : startsWith (String.ofList ('\x7b' :: (inner ++ ['\x7d']))) "```" = false := by
    simp only [startsWith, String.toList_ofList]
    rfl
  rw [h, unfenced, strip_braced, hfence, if_neg Bool.false_ne_true]

theorem parse_planReply {host : Host} (hloads : LoadsPlans host) (plan : Plan) :
    parseModelJson host (planReply plan) = .ok (some (planFields plan)) := by
  rw [parseModelJson, unfenced_planReply, hloads plan]

end AgenticDynamics.Knowledge.PromptPlan
