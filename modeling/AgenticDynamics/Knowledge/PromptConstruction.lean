import AgenticDynamics.Knowledge.PromptPlan

/-!
# Constructing a prompt

The constructor asks the model for a plan, once more where the plan is not valid, and renders the
plan or the deterministic one. Whatever the model does, the prompt keeps the work item and puts the
policy above the evidence. A reply whose lists are no lists raises where the plan is read from it,
and then there is no repair.
-/

namespace AgenticDynamics.Knowledge.PromptPlan

open Python

structure AugmentedPrompt where
  prompt : String
  promptPlan : Plan
  rawWorkItemHash : String
  constructorModel : String
  schemaVersion : String
  evidenceIds : List String
  tokenCount : ℤ
  fallback : Bool
  repairCount : ℕ
  validatorErrors : List String
  fallbackReason : String

/-- What outlives an exception: the prompts sent to the model and the repair count. -/
structure Progress where
  sent : List String
  repairCount : ℕ

/-- The outcome of the `try` block. -/
structure Judgement where
  plan : Option Plan
  errors : List String
  fallback : Bool
  fallbackReason : String

section Construct

variable (host : Host) (model : String) (backend : List String → Except Fault String)
variable (request : Request)

/-- `plan_from_dict(data) if data is not None else None`. -/
def planOf : Option (Dict Json) → Except Fault (Option Plan)
  | none   => .ok none
  | some d => (planFromDict host d).map some

/-- `_call` and the plan in its reply. The model answers knowing every prompt it was sent. -/
def drawn (sent : List String) : Except Fault (Option Plan) := do
  let reply ← backend sent
  let data ← parseModelJson host reply
  planOf host data

/-- A call with the prompt for the feedback; what was sent stays sent if it raises. -/
def ask (evidence : List EvidenceUnit) (feedback : List String) (progress : Progress) :
    Except Fault (Option Plan) × Progress :=
  let sent := progress.sent ++ [buildConstructorPrompt host request evidence feedback]
  (drawn host backend sent, { progress with sent })

/-- The errors of the plan, or that there is none. -/
def judged (evidence : List EvidenceUnit) : Option Plan → List String
  | none      => ["model returned invalid JSON"]
  | some plan => validatePlan host plan request evidence

/-- The outcome of the repair call, `plan` being the one it is to replace. -/
def repaired (evidence : List EvidenceUnit) (plan : Option Plan) (errors : List String)
    (progress : Progress) : Except Fault Judgement × Progress :=
  match ask host backend request evidence errors progress with
  | (.error fault, progress) => (.error fault, progress)
  | (.ok plan2, progress)    =>
    let errors2 := judged host request evidence plan2
    if errors2 = [] then
      (.ok { plan := plan2, errors := [], fallback := false, fallbackReason := "" }, progress)
    else
      (.ok { plan, errors := errors2, fallback := true, fallbackReason := "invalid_model_output" },
        progress)

/-- The body of `try` in `construct`. -/
def attempt (evidence : List EvidenceUnit) (progress : Progress) :
    Except Fault Judgement × Progress :=
  match ask host backend request evidence [] progress with
  | (.error fault, progress) => (.error fault, progress)
  | (.ok plan, progress)     =>
    let errors := judged host request evidence plan
    if errors = [] then
      (.ok { plan, errors, fallback := false, fallbackReason := "" }, progress)
    else repaired host backend request evidence plan errors { progress with repairCount := 1 }

/-- `except Exception`. -/
def caught : Except Fault Judgement → Judgement
  | .ok judgement => judgement
  | .error fault  =>
    { plan := none, errors := [fault.typeName ++ ": " ++ fault.text], fallback := true,
      fallbackReason := "constructor_call_failed" }

/-- The plan to render, whether it is the fallback, and why. -/
def settled (judgement : Judgement) : Plan × Bool × String :=
  match judgement.plan, judgement.errors with
  | some plan, [] => (plan, judgement.fallback, judgement.fallbackReason)
  | _,         _  =>
    (buildDeterministicPlan host request, true,
      if judgement.fallbackReason = "" then "invalid_model_output" else judgement.fallbackReason)

def evidenceOf : List EvidenceUnit :=
  trimEvidenceToBudget request.evidence request.inputBudgetTokens

/-- `construct`, with what was sent to the model. -/
def construct : AugmentedPrompt × Progress :=
  let evidence := evidenceOf request
  let (result, progress) := attempt host backend request evidence ⟨[], 0⟩
  let judgement := caught result
  let (plan, fallback, fallbackReason) := settled host request judgement
  let rendered := renderPrompt host plan request evidence
  ({  prompt := rendered
      promptPlan := plan
      rawWorkItemHash := hashWorkItem host request.rawWorkItem
      constructorModel := model
      schemaVersion := planSchema
      evidenceIds := evidence.map (·.knowledgeId)
      tokenCount := estimateTokens rendered
      fallback
      repairCount := progress.repairCount
      validatorErrors := judgement.errors
      fallbackReason }, progress)

/-! ### What the attempt does -/

def firstPrompt : String := buildConstructorPrompt host request (evidenceOf request) []

def repairPrompt (errors : List String) : String :=
  buildConstructorPrompt host request (evidenceOf request) errors

/-! ### What the attempt does -/

theorem attempt_sent :
    (attempt host backend request (evidenceOf request) ⟨[], 0⟩).2.sent =
      match drawn host backend [firstPrompt host request] with
      | .error _ => [firstPrompt host request]
      | .ok plan =>
        let errors := judged host request (evidenceOf request) plan
        if errors = [] then [firstPrompt host request]
        else [firstPrompt host request, repairPrompt host request errors] := by
  simp only [attempt, ask, firstPrompt, List.nil_append]
  cases drawn host backend [buildConstructorPrompt host request (evidenceOf request) []] with
  | error fault => rfl
  | ok plan =>
    dsimp only
    split
    · rfl
    · simp only [repaired, ask, repairPrompt, List.cons_append, List.nil_append]
      cases drawn host backend _ with
      | error fault => rfl
      | ok plan2    => dsimp only; split <;> rfl

/-- Without errors there is a valid plan, and it is no fallback. -/
def Judgement.Sound (evidence : List EvidenceUnit) (judgement : Judgement) : Prop :=
  judgement.errors = [] →
    judgement.fallback = false ∧ judged host request evidence judgement.plan = []

lemma caught_error_sound (evidence : List EvidenceUnit) (fault : Fault) :
    (caught (.error fault)).Sound host request evidence := by
  intro h
  simp [caught] at h

theorem repaired_sound (evidence : List EvidenceUnit) (plan : Option Plan) (errors : List String)
    (progress : Progress) :
    (caught (repaired host backend request evidence plan errors progress).1).Sound
      host request evidence := by
  simp only [repaired, ask]
  cases drawn host backend _ with
  | error fault => exact caught_error_sound host request evidence fault
  | ok plan2 =>
    dsimp only
    split
    · rename_i hvalid
      exact fun _ => ⟨rfl, hvalid⟩
    · rename_i hinvalid
      exact fun h => absurd h hinvalid

theorem attempt_sound (evidence : List EvidenceUnit) (progress : Progress) :
    (caught (attempt host backend request evidence progress).1).Sound host request evidence := by
  simp only [attempt, ask]
  cases drawn host backend _ with
  | error fault => exact caught_error_sound host request evidence fault
  | ok plan =>
    dsimp only
    split
    · rename_i hvalid
      exact fun _ => ⟨rfl, hvalid⟩
    · exact repaired_sound host backend request evidence plan _ _

theorem construct_plan :
    (construct host model backend request).1.fallback = false ∧
        validatePlan host (construct host model backend request).1.promptPlan request
          (evidenceOf request) = [] ∨
      (construct host model backend request).1.fallback = true ∧
        (construct host model backend request).1.promptPlan =
          buildDeterministicPlan host request := by
  simp only [construct]
  have hsound := attempt_sound host backend request (evidenceOf request) ⟨[], 0⟩
  generalize caught (attempt host backend request (evidenceOf request) ⟨[], 0⟩).1 =
    judgement at hsound
  obtain ⟨plan, errors, fallback, fallbackReason⟩ := judgement
  cases errors with
  | cons error errors => cases plan <;> exact .inr ⟨rfl, rfl⟩
  | nil =>
    obtain ⟨hfallback, hvalid⟩ := hsound rfl
    cases plan with
    | none      => simp [judged] at hvalid
    | some plan => exact .inl ⟨hfallback, hvalid⟩

/-! ### The prompt -/

lemma joinParts_append {parts : List String} (hne : parts ≠ []) (more : List String) :
    ∃ below, joinParts (parts ++ more) = joinParts parts ++ below := by
  cases more with
  | nil => exact ⟨"", by simp⟩
  | cons part more =>
    refine ⟨"\n\n" ++ joinParts (part :: more), ?_⟩
    simp only [joinParts]
    rw [String.intercalate_append_of_ne_nil hne (by simp)]
    simp [String.append_assoc]

lemma within_iff {sub text : String} :
    within sub text = true ↔ ∃ before after, text = before ++ sub ++ after := by
  simp only [within, decide_eq_true_eq]
  constructor
  · rintro ⟨before, after, h⟩
    refine ⟨String.ofList before, String.ofList after, ?_⟩
    rw [← String.toList_inj]
    simp [← h]
  · rintro ⟨before, after, rfl⟩
    exact ⟨before.toList, after.toList, by simp⟩

lemma within_append {sub text : String} (h : within sub text = true) (before after : String) :
    within sub (before ++ text ++ after) = true := by
  obtain ⟨front, back, rfl⟩ := within_iff.mp h
  exact within_iff.mpr ⟨before ++ front, back ++ after, by simp [String.append_assoc]⟩

lemma within_joinParts {part : String} {parts : List String} (hmem : part ∈ parts) :
    within part (joinParts parts) = true := by
  induction parts with
  | nil => simp at hmem
  | cons first parts ih =>
    rcases List.mem_cons.mp hmem with rfl | hmem
    · obtain ⟨below, hbelow⟩ := joinParts_append (List.cons_ne_nil part []) parts
      refine within_iff.mpr ⟨"", below, ?_⟩
      simpa [joinParts] using hbelow
    · have hjoin : joinParts (first :: parts) = (first ++ "\n\n") ++ joinParts parts ++ "" := by
        simp [joinParts, String.intercalate_cons_of_ne_nil (List.ne_nil_of_mem hmem)]
      rw [hjoin]
      exact within_append (ih hmem) _ _

/-- The prompt has the work item and the policy, as the renderer strips it, above the evidence. -/
def PolicyAbove (evidence : List EvidenceUnit) (prompt : String) : Prop :=
  ∃ above below, prompt = above ++ joinParts (evidenceBlock evidence) ++ below ∧
    within request.rawWorkItem above = true ∧ within (strip request.pinnedPolicy) above = true

lemma workItem_mem (plan : Plan) :
    "## Work item (verbatim)\n" ++ request.rawWorkItem ∈ controlParts host plan request := by
  simp [controlParts]

lemma policy_mem (plan : Plan) (hpolicy : strip request.pinnedPolicy ≠ "") :
    "## Pinned policy (authoritative, not retrieved)\n" ++ strip request.pinnedPolicy ∈
      controlParts host plan request := by
  simp [controlParts, stated, hpolicy]

lemma within_of_heading {heading text : String} {parts : List String}
    (hmem : heading ++ text ∈ parts) : within text (joinParts parts) = true := by
  obtain ⟨before, after, h⟩ := within_iff.mp (within_joinParts hmem)
  exact within_iff.mpr ⟨before ++ heading, after, by rw [h]; simp [String.append_assoc]⟩

theorem renderPrompt_policyAbove (plan : Plan) (evidence : List EvidenceUnit) :
    PolicyAbove request evidence (renderPrompt host plan request evidence) := by
  set control := controlParts host plan request with hcontrol
  set closing := closingParts plan request with hclosing
  have hne : control ≠ [] := List.ne_nil_of_mem (workItem_mem host request plan)
  have hitem : within request.rawWorkItem (joinParts control) = true :=
    within_of_heading (workItem_mem host request plan)
  have hpolicy : within (strip request.pinnedPolicy) (joinParts control) = true := by
    by_cases hblank : strip request.pinnedPolicy = ""
    · rw [hblank]
      exact within_iff.mpr ⟨"", joinParts control, by simp⟩
    · exact within_of_heading (policy_mem host request plan hblank)
  simp only [renderPrompt, ← hcontrol, ← hclosing]
  cases hblock : evidenceBlock evidence with
  | nil =>
    obtain ⟨below, hbelow⟩ := joinParts_append hne closing
    refine ⟨joinParts control, below, ?_, hitem, hpolicy⟩
    simpa [hblock, joinParts] using hbelow
  | cons part block =>
    obtain ⟨below, hbelow⟩ := joinParts_append (List.cons_ne_nil part block) closing
    refine ⟨joinParts control ++ "\n\n", below, ?_, ?_, ?_⟩
    · rw [hblock, String.append_assoc, ← hbelow]
      simp only [joinParts]
      rw [String.intercalate_append_of_ne_nil hne (by simp)]
    · simpa using within_append hitem "" "\n\n"
    · simpa using within_append hpolicy "" "\n\n"

/-! ### Replies that raise -/

/-- The field is missing or can be iterated. -/
def Listed (fields : Dict Json) (key : String) : Prop :=
  match Dict.get? key fields with
  | none | some (.str _) | some (.arr _) | some (.obj _) => True
  | _                                                   => False

/-- The items of a field, none where it has no items. -/
def listedItems (fields : Dict Json) (key : String) : List Json :=
  (itemsOf fields key).toOption.getD []

/-- The lists of the reply can be iterated, those of its targets and claims too. -/
structure Coercible (d : Dict Json) : Prop where
  constraints : Listed d "hard_constraints"
  targets : Listed d "relevant_targets"
  symbols : ∀ t ∈ listedItems d "relevant_targets", Listed (fieldsOf t) "symbols"
  targetIds : ∀ t ∈ listedItems d "relevant_targets", Listed (fieldsOf t) "evidence_ids"
  claims : Listed d "evidence_claims"
  claimIds : ∀ c ∈ listedItems d "evidence_claims", Listed (fieldsOf c) "evidence_ids"
  conflicts : Listed d "conflicts_and_unknowns"
  checks : Listed d "acceptance_checks"
  tools : Listed d "allowed_tools"

lemma itemsOf_isOk {fields : Dict Json} {key : String} :
    (∃ items, itemsOf fields key = .ok items) ↔ Listed fields key := by
  simp only [itemsOf, Listed]
  cases hget : Dict.get? key fields with
  | none => simp [Json.toList]
  | some value => cases value <;> simp [Json.toList]

lemma textsOf_isOk {fields : Dict Json} {key : String} :
    (∃ texts, textsOf host fields key = .ok texts) ↔ Listed fields key := by
  rw [← itemsOf_isOk]
  cases h : itemsOf fields key <;> simp [textsOf, h, Except.map]

lemma targetOf_isOk {t : Json} :
    (∃ target, targetOf host t = .ok target) ↔
      Listed (fieldsOf t) "symbols" ∧ Listed (fieldsOf t) "evidence_ids" := by
  rw [← textsOf_isOk host, ← textsOf_isOk host]
  simp only [targetOf, bind_eq_ok, Except.ok.injEq]
  constructor
  · rintro ⟨_, symbols, hsymbols, ids, hids, -⟩
    exact ⟨⟨symbols, hsymbols⟩, ids, hids⟩
  · rintro ⟨⟨symbols, hsymbols⟩, ids, hids⟩
    exact ⟨_, symbols, hsymbols, ids, hids, rfl⟩

lemma claimOf_isOk {c : Json} :
    (∃ claim, claimOf host c = .ok claim) ↔ Listed (fieldsOf c) "evidence_ids" := by
  rw [← textsOf_isOk host]
  simp only [claimOf, bind_eq_ok, Except.ok.injEq]
  constructor
  · rintro ⟨_, ids, hids, -⟩
    exact ⟨ids, hids⟩
  · rintro ⟨ids, hids⟩
    exact ⟨_, ids, hids, rfl⟩

lemma listedItems_of_ok {fields : Dict Json} {key : String} {items : List Json}
    (h : itemsOf fields key = .ok items) : listedItems fields key = items := by
  simp [listedItems, h, Except.toOption]

/-- Reading a plan raises on the objects whose lists are no lists, and on no others. -/
theorem planFromDict_isOk {d : Dict Json} :
    (∃ plan, planFromDict host d = .ok plan) ↔ Coercible d := by
  simp only [planFromDict, bind_eq_ok, Except.ok.injEq]
  constructor
  · rintro ⟨_, constraints, hconstraints, targets, htargets, readTargets, hreadTargets, claims,
      hclaims, readClaims, hreadClaims, conflicts, hconflicts, checks, hchecks, tools, htools, -⟩
    have heach := mapM_isOk.mp ⟨readTargets, hreadTargets⟩
    have heachClaim := mapM_isOk.mp ⟨readClaims, hreadClaims⟩
    constructor
    case constraints => exact itemsOf_isOk.mp ⟨constraints, hconstraints⟩
    case targets     => exact itemsOf_isOk.mp ⟨targets, htargets⟩
    case claims      => exact itemsOf_isOk.mp ⟨claims, hclaims⟩
    case checks      => exact itemsOf_isOk.mp ⟨checks, hchecks⟩
    case conflicts   => exact (textsOf_isOk host).mp ⟨conflicts, hconflicts⟩
    case tools       => exact (textsOf_isOk host).mp ⟨tools, htools⟩
    case symbols =>
      rw [listedItems_of_ok htargets]
      exact fun t ht => ((targetOf_isOk host).mp (heach t ht)).1
    case targetIds =>
      rw [listedItems_of_ok htargets]
      exact fun t ht => ((targetOf_isOk host).mp (heach t ht)).2
    case claimIds =>
      rw [listedItems_of_ok hclaims]
      exact fun c hc => (claimOf_isOk host).mp (heachClaim c hc)
  · intro h
    obtain ⟨constraints, hconstraints⟩ := itemsOf_isOk.mpr h.constraints
    obtain ⟨targets, htargets⟩ := itemsOf_isOk.mpr h.targets
    obtain ⟨claims, hclaims⟩ := itemsOf_isOk.mpr h.claims
    obtain ⟨conflicts, hconflicts⟩ := (textsOf_isOk host).mpr h.conflicts
    obtain ⟨checks, hchecks⟩ := itemsOf_isOk.mpr h.checks
    obtain ⟨tools, htools⟩ := (textsOf_isOk host).mpr h.tools
    have hsymbols := h.symbols
    have hids := h.targetIds
    have hclaimIds := h.claimIds
    rw [listedItems_of_ok htargets] at hsymbols hids
    rw [listedItems_of_ok hclaims] at hclaimIds
    obtain ⟨readTargets, hreadTargets⟩ := mapM_isOk.mpr fun t ht =>
      (targetOf_isOk host).mpr ⟨hsymbols t ht, hids t ht⟩
    obtain ⟨readClaims, hreadClaims⟩ := mapM_isOk.mpr fun c hc =>
      (claimOf_isOk host).mpr (hclaimIds c hc)
    exact ⟨_, constraints, hconstraints, targets, htargets, readTargets, hreadTargets, claims,
      hclaims, readClaims, hreadClaims, conflicts, hconflicts, checks, hchecks, tools, htools, rfl⟩

/-! ### Fail-closed -/

/-- The object reads as a plan in which nothing is wrong. -/
def ValidReply (d : Dict Json) : Prop :=
  ∃ plan, planFromDict host d = .ok plan ∧
    validatePlan host plan request (evidenceOf request) = []

/-- The first reply is the JSON object `d`. -/
def FirstReply (d : Dict Json) : Prop :=
  ∃ reply, backend [firstPrompt host request] = .ok reply ∧
    parseModelJson host reply = .ok (some d)

structure FailClosed (out : AugmentedPrompt × Progress) : Prop where
  calls : out.2.sent.length ≤ 2
  above : PolicyAbove request (evidenceOf request) out.1.prompt
  valid : out.1.fallback = false →
    validatePlan host out.1.promptPlan request (evidenceOf request) = []
  deterministic : out.1.fallback = true → out.1.promptPlan = buildDeterministicPlan host request
  repair : ∀ d, FirstReply host backend request d → ¬ ValidReply host request d →
    ∃ errors, errors ≠ [] ∧
      out.2.sent = [firstPrompt host request, repairPrompt host request errors]

theorem construct_calls : (construct host model backend request).2.sent.length ≤ 2 := by
  have hsent := attempt_sent host backend request
  simp only [construct, hsent]
  cases drawn host backend [firstPrompt host request] with
  | error fault => simp
  | ok plan     => dsimp only; split <;> simp

lemma drawn_of_firstReply {d : Dict Json} (h : FirstReply host backend request d) :
    drawn host backend [firstPrompt host request] = (planFromDict host d).map some := by
  obtain ⟨reply, hreply, hdata⟩ := h
  simp [drawn, hreply, hdata, planOf, Bind.bind, Except.bind]

theorem construct_repairs {d : Dict Json} (hfirst : FirstReply host backend request d)
    (hinvalid : ¬ ValidReply host request d) {plan : Plan}
    (hplan : planFromDict host d = .ok plan) :
    ∃ errors, errors ≠ [] ∧ (construct host model backend request).2.sent =
      [firstPrompt host request, repairPrompt host request errors] := by
  have hsent := attempt_sent host backend request
  have hdrawn := drawn_of_firstReply host backend request hfirst
  have herrors : judged host request (evidenceOf request) (some plan) ≠ [] :=
    fun hvalid => hinvalid ⟨plan, hplan, hvalid⟩
  refine ⟨judged host request (evidenceOf request) (some plan), herrors, ?_⟩
  simp only [construct, hsent, hdrawn, hplan, Except.map]
  rw [if_neg herrors]

theorem construct_raised {d : Dict Json} (hfirst : FirstReply host backend request d)
    {fault : Fault} (hraised : planFromDict host d = .error fault) :
    (construct host model backend request).2.sent = [firstPrompt host request] := by
  have hsent := attempt_sent host backend request
  have hdrawn := drawn_of_firstReply host backend request hfirst
  simp only [construct, hsent, hdrawn, hraised, Except.map]

theorem construct_prompt :
    (construct host model backend request).1.prompt =
      renderPrompt host (construct host model backend request).1.promptPlan request
        (evidenceOf request) := by
  simp only [construct]

/-- The constructor fails closed in all but one case: the first reply is an object one of whose
lists is no list. Then it is not asked to repair the plan. -/
theorem failClosed_iff :
    FailClosed host backend request (construct host model backend request) ↔
      ∀ d, FirstReply host backend request d → Coercible d := by
  have hplan := construct_plan host model backend request
  constructor
  · intro h d hfirst
    rw [← planFromDict_isOk host]
    cases hread : planFromDict host d with
    | ok plan => exact ⟨plan, rfl⟩
    | error fault =>
      have hinvalid : ¬ ValidReply host request d := by
        rintro ⟨plan, hok, -⟩
        simp [hread] at hok
      obtain ⟨errors, -, hsent⟩ := h.repair d hfirst hinvalid
      rw [construct_raised host model backend request hfirst hread] at hsent
      simp at hsent
  · intro hcoercible
    constructor
    case calls => exact construct_calls host model backend request
    case above =>
      rw [construct_prompt]
      exact renderPrompt_policyAbove host request _ _
    case valid =>
      intro hfallback
      rcases hplan with ⟨-, hvalid⟩ | ⟨hother, -⟩
      · exact hvalid
      · simp [hfallback] at hother
    case deterministic =>
      intro hfallback
      rcases hplan with ⟨hother, -⟩ | ⟨-, hdeterministic⟩
      · simp [hfallback] at hother
      · exact hdeterministic
    case repair =>
      intro d hfirst hinvalid
      obtain ⟨plan, hread⟩ := (planFromDict_isOk host).mpr (hcoercible d hfirst)
      exact construct_repairs host model backend request hfirst hinvalid hread

end Construct

/-! A model that answers with a null where a list belongs. -/

def nullReply : String := "\x7b\"hard_constraints\": null\x7d"

def nullHost : Host where
  loads text :=
    if text = nullReply then .ok (.obj [("hard_constraints", .null)])
    else .error ("JSONDecodeError", "Expecting value: line 1 column 1 (char 0)")
  repr value := value.typeName
  upper := id
  lower := id
  sha256 := id
  dumps value := value.typeName
  fromisoformat _ := none

def nullRequest : Request where
  rawWorkItem := "Fix the bug."
  phaseObjective := ""
  pinnedPolicy := ""
  evidence := []
  inheritedTools := []
  userConstraints := []
  constructorModel := ""
  schemaVersion := planSchema
  inputBudgetTokens := 3000

lemma parse_nullReply :
    parseModelJson nullHost nullReply = .ok (some [("hard_constraints", .null)]) := by
  have hbare : unfenced nullReply = nullReply := by decide +kernel
  simp [parseModelJson, hbare, nullHost]

theorem null_list_not_repaired :
    ¬ FailClosed nullHost (fun _ => .ok nullReply) nullRequest
      (construct nullHost "" (fun _ => .ok nullReply) nullRequest) := by
  intro h
  have hfirst : FirstReply nullHost (fun _ => .ok nullReply) nullRequest
      [("hard_constraints", .null)] := ⟨nullReply, rfl, parse_nullReply⟩
  have hraised : planFromDict nullHost [("hard_constraints", .null)] =
      .error ⟨"TypeError", "\x27NoneType\x27 object is not iterable"⟩ := by rfl
  have hinvalid : ¬ ValidReply nullHost nullRequest [("hard_constraints", .null)] := by
    rintro ⟨plan, hplan, -⟩
    simp [hraised] at hplan
  obtain ⟨errors, -, hsent⟩ := h.repair _ hfirst hinvalid
  rw [construct_raised nullHost "" (fun _ => .ok nullReply) nullRequest hfirst hraised] at hsent
  simp at hsent

end AgenticDynamics.Knowledge.PromptPlan
