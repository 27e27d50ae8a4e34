import AgenticDynamics.Knowledge.PlanReplies

/-!
# The construction cache key

The key hashes a part of the request. What a construction yields depends on more: on the tools, the
user's constraints, and what of the evidence and the policy reaches the model, the validator and the
renderer. Two requests yield the same under every model exactly when they agree on all of that.
-/

namespace AgenticDynamics.Knowledge.PromptPlan

open Python

section Key

variable (host : Host) (model : String)

def evidenceSet (evidence : List EvidenceUnit) : String :=
  "\x1f".intercalate
    ((evidence.map fun e => e.knowledgeId ++ ":" ++ e.contentHash).mergeSort fun a b => a ≤ b)

def constructionCacheKey (request : Request) : String :=
  "sha256:" ++ host.sha256 ("|".intercalate
    [hashWorkItem host request.rawWorkItem, request.phaseObjective, evidenceSet request.evidence,
      host.sha256 request.pinnedPolicy, request.constructorModel, request.schemaVersion])

/-- A model that answers every prompt as it did before. -/
def deterministic (reply : String → Except Fault String) (sent : List String) :
    Except Fault String :=
  reply (sent.getLast?.getD "")

/-- No model tells the requests apart by what is constructed. -/
def SameConstruction (r₁ r₂ : Request) : Prop :=
  ∀ reply : String → Except Fault String,
    (construct host model (deterministic reply) r₁).1.promptPlan =
        (construct host model (deterministic reply) r₂).1.promptPlan ∧
      (construct host model (deterministic reply) r₁).1.prompt =
        (construct host model (deterministic reply) r₂).1.prompt

/-- A construction cached for the one request may be used for the other. -/
def CacheSound (r₁ r₂ : Request) : Prop :=
  constructionCacheKey host r₁ = constructionCacheKey host r₂ → SameConstruction host model r₁ r₂

/-! ### What a construction reads -/

/-- The user or the policy says so: such a constraint is not invented. -/
def Covered (request : Request) (text : String) : Prop :=
  within text (joinLines request.userConstraints) = true ∨ within text request.pinnedPolicy = true

instance (request : Request) (text : String) : Decidable (Covered request text) :=
  inferInstanceAs (Decidable (_ ∨ _))

def headParts (request : Request) : List String :=
  stated "## Objective" request.phaseObjective ++
  (["## Work item (verbatim)\n" ++ request.rawWorkItem] ++
  stated "## Pinned policy (authoritative, not retrieved)" request.pinnedPolicy)

/-- The requests differ in nothing that the model is told, the validator looks up or the renderer
writes. -/
structure Agree (r₁ r₂ : Request) : Prop where
  prompt : firstPrompt host r₁ = firstPrompt host r₂
  workItem : hashWorkItem host r₁.rawWorkItem = hashWorkItem host r₂.rawWorkItem
  tools : r₁.inheritedTools = r₂.inheritedTools
  constraints : r₁.userConstraints = r₂.userConstraints
  covered : ∀ text, Covered r₁ text ↔ Covered r₂ text
  authority : ∀ id, authorityById (evidenceOf r₁) id = authorityById (evidenceOf r₂) id
  head : joinParts (headParts r₁) = joinParts (headParts r₂)
  evidence : evidenceBlock (evidenceOf r₁) = evidenceBlock (evidenceOf r₂)

lemma headParts_ne_nil (request : Request) : headParts request ≠ [] := by simp [headParts]

/-- The sections of the plan above the evidence. -/
def planParts (plan : Plan) : List String :=
  listed "## Hard constraints" (plan.hardConstraints.map fun c =>
    "- " ++ c.text ++ " (" ++ c.source ++ ": " ++ c.citation ++ ")") ++
  listed "## Relevant targets" (plan.relevantTargets.map fun t =>
    "- " ++ t.path ++ " symbols=" ++ quotedList host t.symbols ++ " evidence=" ++
      quotedList host t.evidenceIds)

lemma controlParts_eq (plan : Plan) (request : Request) :
    controlParts host plan request = headParts request ++ planParts host plan := by
  simp [controlParts, headParts, planParts]

lemma joinParts_congr {parts parts' : List String} (hne : parts ≠ []) (hne' : parts' ≠ [])
    (h : joinParts parts = joinParts parts') (more : List String) :
    joinParts (parts ++ more) = joinParts (parts' ++ more) := by
  cases more with
  | nil => simpa using h
  | cons part more =>
    simp only [joinParts] at h ⊢
    rw [String.intercalate_append_of_ne_nil hne (by simp),
      String.intercalate_append_of_ne_nil hne' (by simp), h]

/-- What the prompt for a repair says after the first one. -/
def feedbackText (errors : List String) : String :=
  "\n\n" ++ ("## Validation errors to fix (do not repeat them)\n" ++
    joinLines (errors.map ("- " ++ ·)))

lemma repairPrompt_eq (request : Request) {errors : List String} (hne : errors ≠ []) :
    repairPrompt host request errors = firstPrompt host request ++ feedbackText errors := by
  simp only [repairPrompt, firstPrompt, buildConstructorPrompt, feedbackText, joinParts, if_neg hne,
    if_pos, List.append_nil]
  rw [String.intercalate_append_of_ne_nil (by simp) (by simp)]
  simp [String.append_assoc]

lemma mem_scopeOf {evidence : List EvidenceUnit} {id : String} :
    id ∈ scopeOf evidence ↔ (authorityById evidence id).isSome = true := by
  simp [scopeOf, authorityById]

/-- The errors of a constraint that no request decides. -/
def ownErrors (i : ℕ) (hc : HardConstraint) : List String :=
  let name := "hard_constraints[" ++ toString i ++ "]"
  check (strip hc.text ≠ "") (name ++ ".text is empty") ++
  check (hc.source ∈ hardConstraintSources)
    (name ++ ".source " ++ host.quote hc.source ++ " is not user|policy " ++
      "(retrieved text must stay evidence, not control)") ++
  check (startsWith hc.citation "[K:" = false)
    (name ++ " cites evidence as control text (authority escalation)") ++
  check (hc.source = "user" → startsWith hc.citation "user:" = true)
    (name ++ ".citation is not a user citation") ++
  check (hc.source = "policy" → startsWith hc.citation "policy:" = true)
    (name ++ ".citation is not a policy citation")

def inventedText (i : ℕ) (hc : HardConstraint) : String :=
  "hard_constraints[" ++ toString i ++ "]" ++ " is an invented constraint: " ++ host.quote hc.text

lemma constraintErrors_eq (request : Request) (i : ℕ) (hc : HardConstraint) :
    constraintErrors host request i hc =
      ownErrors host i hc ++ check (Covered request hc.text) (inventedText host i hc) := rfl

/-! ### Requests that agree -/

lemma check_congr {p q : Prop} [Decidable p] [Decidable q] (hpq : p ↔ q) (error : String) :
    check p error = check q error := by
  simp only [check, hpq]

section Sufficient

variable {host} {r₁ r₂ : Request} (h : Agree host r₁ r₂)

include h

theorem Agree.validatePlan (plan : Plan) :
    PromptPlan.validatePlan host plan r₁ (evidenceOf r₁) =
      PromptPlan.validatePlan host plan r₂ (evidenceOf r₂) := by
  have hscope (id : String) : id ∈ scopeOf (evidenceOf r₁) ↔ id ∈ scopeOf (evidenceOf r₂) := by
    rw [mem_scopeOf, mem_scopeOf, h.authority id]
  have hauthority : authorityById (evidenceOf r₁) = authorityById (evidenceOf r₂) :=
    funext h.authority
  have hconstraint : constraintErrors host r₁ = constraintErrors host r₂ := by
    funext i hc
    rw [constraintErrors_eq, constraintErrors_eq, check_congr (h.covered hc.text)]
  have hscopeErrors : scopeErrors host (evidenceOf r₁) = scopeErrors host (evidenceOf r₂) := by
    funext name ids
    simp only [scopeErrors, check_congr (hscope _)]
  have hclaim : claimErrors host (evidenceOf r₁) = claimErrors host (evidenceOf r₂) := by
    funext i claim
    simp only [claimErrors, hscopeErrors, hauthority]
  have htarget : targetErrors host (evidenceOf r₁) = targetErrors host (evidenceOf r₂) := by
    funext i t
    simp only [targetErrors, hscopeErrors]
  simp only [PromptPlan.validatePlan, hconstraint, hclaim, htarget, h.workItem, h.tools]

theorem Agree.buildDeterministicPlan :
    PromptPlan.buildDeterministicPlan host r₁ = PromptPlan.buildDeterministicPlan host r₂ := by
  simp only [PromptPlan.buildDeterministicPlan, h.workItem, h.constraints, h.tools]

theorem Agree.renderPrompt (plan : Plan) :
    PromptPlan.renderPrompt host plan r₁ (evidenceOf r₁) =
      PromptPlan.renderPrompt host plan r₂ (evidenceOf r₂) := by
  have hclosing : closingParts plan r₁ = closingParts plan r₂ := by
    simp only [closingParts, h.tools]
  simp only [PromptPlan.renderPrompt, controlParts_eq, h.evidence, hclosing, List.append_assoc]
  exact joinParts_congr (headParts_ne_nil r₁) (headParts_ne_nil r₂) h.head _

theorem Agree.constructorPrompt (feedback : List String) :
    buildConstructorPrompt host r₁ (evidenceOf r₁) feedback =
      buildConstructorPrompt host r₂ (evidenceOf r₂) feedback := by
  by_cases hne : feedback = []
  · rw [hne]
    exact h.prompt
  · have hrepair : repairPrompt host r₁ feedback = repairPrompt host r₂ feedback := by
      rw [repairPrompt_eq host r₁ hne, repairPrompt_eq host r₂ hne, h.prompt]
    exact hrepair

theorem Agree.attempt (backend : List String → Except Fault String) (progress : Progress) :
    PromptPlan.attempt host backend r₁ (evidenceOf r₁) progress =
      PromptPlan.attempt host backend r₂ (evidenceOf r₂) progress := by
  have hask (feedback : List String) (progress : Progress) :
      ask host backend r₁ (evidenceOf r₁) feedback progress =
        ask host backend r₂ (evidenceOf r₂) feedback progress := by
    simp only [ask, h.constructorPrompt]
  have hjudged (plan : Option Plan) :
      judged host r₁ (evidenceOf r₁) plan = judged host r₂ (evidenceOf r₂) plan := by
    cases plan with
    | none      => rfl
    | some plan => exact h.validatePlan plan
  simp only [PromptPlan.attempt, repaired, hask, hjudged]

theorem Agree.sameConstruction : SameConstruction host model r₁ r₂ := by
  intro reply
  have hplan : (construct host model (PromptPlan.deterministic reply) r₁).1.promptPlan =
      (construct host model (PromptPlan.deterministic reply) r₂).1.promptPlan := by
    simp only [construct, h.attempt, settled, h.buildDeterministicPlan]
  refine ⟨hplan, ?_⟩
  rw [construct_prompt, construct_prompt, hplan, h.renderPrompt]

end Sufficient

/-! ### Which plan is constructed -/

section Outcome

variable (backend : List String → Except Fault String) (request : Request)

lemma plan_of_attempt {judgement : Judgement} {progress : Progress}
    (h : attempt host backend request (evidenceOf request) ⟨[], 0⟩ = (.ok judgement, progress)) :
    (construct host model backend request).1.promptPlan = (settled host request judgement).1 := by
  simp only [construct, h, caught]

lemma plan_of_fault {fault : Fault} {progress : Progress}
    (h : attempt host backend request (evidenceOf request) ⟨[], 0⟩ = (.error fault, progress)) :
    (construct host model backend request).1.promptPlan = buildDeterministicPlan host request := by
  simp only [construct, h, caught, settled]

lemma plan_of_silence {fault : Fault}
    (h : drawn host backend [firstPrompt host request] = .error fault) :
    (construct host model backend request).1.promptPlan = buildDeterministicPlan host request := by
  apply plan_of_fault
  simp only [attempt, ask, List.nil_append, ← firstPrompt.eq_1, h]
  rfl

lemma plan_of_valid {plan : Plan}
    (h : drawn host backend [firstPrompt host request] = .ok (some plan))
    (hvalid : validatePlan host plan request (evidenceOf request) = []) :
    (construct host model backend request).1.promptPlan = plan := by
  have hattempt : attempt host backend request (evidenceOf request) ⟨[], 0⟩ =
      (.ok ⟨some plan, [], false, ""⟩, ⟨[firstPrompt host request], 0⟩) := by
    have hjudged : judged host request (evidenceOf request) (some plan) = [] := hvalid
    simp only [attempt, ask, List.nil_append, ← firstPrompt.eq_1, h, hjudged]
    rfl
  rw [plan_of_attempt host model backend request hattempt]
  rfl

lemma attempt_of_invalid {plan : Plan} {errors : List String}
    (h : drawn host backend [firstPrompt host request] = .ok (some plan))
    (herrors : validatePlan host plan request (evidenceOf request) = errors) (hne : errors ≠ []) :
    attempt host backend request (evidenceOf request) ⟨[], 0⟩ =
      repaired host backend request (evidenceOf request) (some plan) errors
        ⟨[firstPrompt host request], 1⟩ := by
  have hjudged : judged host request (evidenceOf request) (some plan) = errors := herrors
  simp only [attempt, ask, List.nil_append, ← firstPrompt.eq_1, h, hjudged, if_neg hne]

lemma plan_of_repair {plan plan2 : Plan} {errors : List String}
    (h : drawn host backend [firstPrompt host request] = .ok (some plan))
    (herrors : validatePlan host plan request (evidenceOf request) = errors) (hne : errors ≠ [])
    (h2 : drawn host backend [firstPrompt host request, repairPrompt host request errors] =
      .ok (some plan2))
    (hvalid : validatePlan host plan2 request (evidenceOf request) = []) :
    (construct host model backend request).1.promptPlan = plan2 := by
  have hattempt : attempt host backend request (evidenceOf request) ⟨[], 0⟩ =
      (.ok ⟨some plan2, [], false, ""⟩,
        ⟨[firstPrompt host request, repairPrompt host request errors], 1⟩) := by
    have hjudged : judged host request (evidenceOf request) (some plan2) = [] := hvalid
    rw [attempt_of_invalid host backend request h herrors hne]
    simp only [repaired, ask, List.cons_append, List.nil_append, ← repairPrompt.eq_1, h2, hjudged]
    rfl
  rw [plan_of_attempt host model backend request hattempt]
  rfl

lemma plan_of_unrepaired {plan : Plan} {errors : List String} {fault : Fault}
    (h : drawn host backend [firstPrompt host request] = .ok (some plan))
    (herrors : validatePlan host plan request (evidenceOf request) = errors) (hne : errors ≠ [])
    (h2 : drawn host backend [firstPrompt host request, repairPrompt host request errors] =
      .error fault) :
    (construct host model backend request).1.promptPlan = buildDeterministicPlan host request := by
  apply plan_of_fault
  rw [attempt_of_invalid host backend request h herrors hne]
  simp only [repaired, ask, List.cons_append, List.nil_append, ← repairPrompt.eq_1, h2]
  rfl

end Outcome

/-! ### Models that tell requests apart -/

def silent (_ : String) : Except Fault String := .error ⟨"RuntimeError", ""⟩

/-- The plan in reply to one prompt, and what the other model says to the rest. -/
def answering (prompt : String) (plan : Plan) (other : String → Except Fault String)
    (asked : String) : Except Fault String :=
  if asked = prompt then .ok (planReply plan) else other asked

lemma drawn_silent (sent : List String) (prompt : String) :
    drawn host (deterministic silent) (sent ++ [prompt]) = .error ⟨"RuntimeError", ""⟩ := by
  simp [drawn, deterministic, silent, bind, Except.bind]

variable {host} (hloads : LoadsPlans host)

include hloads in
lemma drawn_answering (prompt : String) (plan : Plan) (other : String → Except Fault String)
    (sent : List String) :
    drawn host (deterministic (answering prompt plan other)) (sent ++ [prompt]) =
      .ok (some plan) := by
  simp only [drawn, deterministic, answering, List.getLast?_concat, Option.getD_some, if_pos, bind,
    Except.bind, parse_planReply hloads, planOf, planFromDict_planFields]
  rfl

lemma drawn_other {prompt asked : String} (hne : asked ≠ prompt) (plan : Plan)
    (other : String → Except Fault String) (sent : List String) :
    drawn host (deterministic (answering prompt plan other)) (sent ++ [asked]) =
      drawn host (deterministic other) (sent ++ [asked]) := by
  simp only [drawn, deterministic, answering, List.getLast?_concat, Option.getD_some, if_neg hne]

/-! ### Plans that probe a request -/

variable (host) in
/-- A plan that names nothing but these items. -/
def probe (request : Request) (constraints : List HardConstraint) (claims : List EvidenceClaim)
    (targets : List RelevantTarget) : Plan where
  schemaVersion := planSchema
  taskIntent := "probe"
  rawWorkItemHash := hashWorkItem host request.rawWorkItem
  hardConstraints := constraints
  relevantTargets := targets
  evidenceClaims := claims
  conflictsAndUnknowns := []
  acceptanceChecks := []
  allowedTools := []
  executorInstructions := ""

lemma probe_errors {request other : Request}
    (hitem : hashWorkItem host request.rawWorkItem = hashWorkItem host other.rawWorkItem)
    (constraints : List HardConstraint) (claims : List EvidenceClaim)
    (targets : List RelevantTarget) :
    validatePlan host (probe host request constraints claims targets) other (evidenceOf other) =
      errorsOf (constraintErrors host other) constraints ++
        (errorsOf (claimErrors host (evidenceOf other)) claims ++
          errorsOf (targetErrors host (evidenceOf other)) targets) := by
  have hintent : strip "probe" ≠ "" := by decide +kernel
  simp [validatePlan, probe, check, hitem, hintent, errorsOf]

lemma probe_valid (request : Request) :
    validatePlan host (probe host request [] [] []) request (evidenceOf request) = [] := by
  rw [probe_errors rfl]
  rfl

lemma ne_deterministic {plan : Plan} {request : Request}
    (hvalid : validatePlan host plan request (evidenceOf request) = []) (other : Request) :
    plan ≠ buildDeterministicPlan host other := by
  rintro rfl
  simp only [validatePlan, List.append_eq_nil_iff, check_eq_nil] at hvalid
  exact hvalid.1.1.1.1.1.2 (show strip "" = "" by decide +kernel)

lemma feedbackText_ne_empty (errors : List String) : feedbackText errors ≠ "" := by
  intro h
  have hlength := congrArg (fun s => s.toList.length) h
  simp [feedbackText] at hlength

variable (host) in
lemma repairPrompt_ne (request : Request) {errors : List String} (hne : errors ≠ []) :
    repairPrompt host request errors ≠ firstPrompt host request := by
  intro h
  rw [repairPrompt_eq host request hne] at h
  exact feedbackText_ne_empty errors (by simpa using h)

lemma feedbackText_concat_ne {errors : List String} (hne : errors ≠ []) (error : String) :
    feedbackText errors ≠ feedbackText (errors ++ [error]) := by
  intro h
  have hlength := congrArg (fun s => s.toList.length) h
  simp only [feedbackText, joinLines, List.map_append, List.map_cons, List.map_nil] at hlength
  rw [String.intercalate_append_of_ne_nil (by simpa using hne) (by simp)] at hlength
  simp at hlength

lemma claim_valid_iff {request other : Request}
    (hitem : hashWorkItem host request.rawWorkItem = hashWorkItem host other.rawWorkItem)
    (id authority : String) :
    validatePlan host (probe host request [] [⟨"claim", [id], authority⟩] []) other
        (evidenceOf other) = [] ↔
      ∃ a, authorityById (evidenceOf other) id = some a ∧ (authority = "" ∨ authority = a) := by
  have hclaim : strip "claim" ≠ "" := by decide +kernel
  rw [probe_errors hitem]
  simp only [errorsOf, List.mapIdx_nil, List.mapIdx_cons, List.flatten_nil, List.flatten_cons,
    List.nil_append, List.append_nil, claimErrors, scopeErrors, List.flatMap_cons,
    List.flatMap_nil, List.append_eq_nil_iff, check_eq_nil, mem_scopeOf]
  cases hid : authorityById (evidenceOf other) id with
  | none   => simp
  | some a => simp [hclaim, hid]

lemma eq_of_attested {x y : Option String}
    (h : ∀ s, (∃ a, x = some a ∧ (s = "" ∨ s = a)) ↔ ∃ a, y = some a ∧ (s = "" ∨ s = a)) :
    x = y := by
  cases x with
  | none =>
    cases y with
    | none   => rfl
    | some b =>
      obtain ⟨a, ha, -⟩ := (h b).mpr ⟨b, rfl, .inr rfl⟩
      simp at ha
  | some a =>
    obtain ⟨b, rfl, hb⟩ := (h a).mp ⟨a, rfl, .inr rfl⟩
    obtain ⟨a', ha', ha⟩ := (h b).mpr ⟨b, rfl, .inr rfl⟩
    obtain rfl := Option.some.inj ha'
    rcases hb with rfl | rfl
    · rcases ha with rfl | rfl <;> rfl
    · rfl

/-! ### Where the targets stand -/

lemma eq_of_run {u₁ u₂ v₁ v₂ : List Char} {c x : Char} (hcx : c ≠ x)
    (h : ∀ n, u₁ ++ c :: (List.replicate n x ++ v₁) = u₂ ++ c :: (List.replicate n x ++ v₂)) :
    u₁ = u₂ := by
  wlog hle : u₁.length ≤ u₂.length generalizing u₁ u₂ v₁ v₂
  · exact (this (fun n => (h n).symm) (by omega)).symm
  rcases hle.eq_or_lt with heq | hlt
  · exact List.append_inj_left (h 0) heq
  · have hat := congrArg (·[u₂.length]?) (h u₂.length)
    simp only [List.getElem?_append_right hle, List.getElem?_append_right le_rfl,
      Nat.sub_self, List.getElem?_cons_zero] at hat
    obtain ⟨k, hk⟩ : ∃ k, u₂.length - u₁.length = k + 1 := ⟨u₂.length - u₁.length - 1, by omega⟩
    rw [hk, List.getElem?_cons_succ, List.getElem?_append_left (by simp; omega),
      List.getElem?_replicate, if_pos (by omega)] at hat
    exact absurd (Option.some.inj hat).symm hcx

def after (parts : List String) : String := if parts = [] then "" else "\n\n" ++ joinParts parts

lemma joinParts_append_after {parts : List String} (hne : parts ≠ []) (more : List String) :
    joinParts (parts ++ more) = joinParts parts ++ after more := by
  cases more with
  | nil => simp [after]
  | cons part more =>
    simp only [joinParts, after, if_neg (List.cons_ne_nil part more)]
    rw [String.intercalate_append_of_ne_nil hne (by simp), String.append_assoc]

lemma after_cons (part : String) (more : List String) :
    after (part :: more) = "\n\n" ++ (part ++ after more) := by
  have h := joinParts_append_after (List.cons_ne_nil part []) more
  rw [after, if_neg (List.cons_ne_nil part more), ← List.singleton_append, h]
  simp [joinParts]

lemma block_of_after {block₁ block₂ : List String} (h₁ : block₁.length ≤ 1)
    (h₂ : block₂.length ≤ 1) {rest : List String}
    (h : after (block₁ ++ rest) = after (block₂ ++ rest)) : block₁ = block₂ := by
  match block₁, block₂, h₁, h₂, h with
  | [],  [],  _, _, _ => rfl
  | [],  [y], _, _, h =>
    have hlength := congrArg (fun s => s.toList.length) h
    simp [after_cons] at hlength
    omega
  | [x], [],  _, _, h =>
    have hlength := congrArg (fun s => s.toList.length) h
    simp [after_cons] at hlength
    omega
  | [x], [y], _, _, h =>
    simp only [List.cons_append, List.nil_append, after_cons] at h
    simpa using h

section Necessary

variable {model} {r₁ r₂ : Request} (hsame : SameConstruction host model r₁ r₂)

include hsame

theorem SameConstruction.symm : SameConstruction host model r₂ r₁ :=
  fun reply => ⟨(hsame reply).1.symm, (hsame reply).2.symm⟩

theorem SameConstruction.deterministicPlan :
    buildDeterministicPlan host r₁ = buildDeterministicPlan host r₂ := by
  have hplan := (hsame silent).1
  rwa [plan_of_silence host model _ r₁ (drawn_silent host [] _),
    plan_of_silence host model _ r₂ (drawn_silent host [] _)] at hplan

include hloads in
theorem SameConstruction.prompt : firstPrompt host r₁ = firstPrompt host r₂ := by
  by_contra hne
  set plan := probe host r₁ [] [] [] with hplan
  have hvalid : validatePlan host plan r₁ (evidenceOf r₁) = [] := probe_valid r₁
  have h := (hsame (answering (firstPrompt host r₁) plan silent)).1
  rw [plan_of_valid host model _ r₁ (drawn_answering hloads _ _ _ []) hvalid,
    plan_of_silence host model _ r₂
      ((drawn_other (Ne.symm hne) _ _ []).trans (drawn_silent host [] _))] at h
  exact ne_deterministic hvalid r₂ h

include hloads in
/-- A plan that is valid for the one request is so for the other, and is rendered the same. -/
theorem SameConstruction.valid {plan : Plan}
    (hvalid : validatePlan host plan r₁ (evidenceOf r₁) = []) :
    validatePlan host plan r₂ (evidenceOf r₂) = [] ∧
      renderPrompt host plan r₁ (evidenceOf r₁) = renderPrompt host plan r₂ (evidenceOf r₂) := by
  have hfirst := hsame.prompt hloads
  have h := hsame (answering (firstPrompt host r₁) plan silent)
  have hplan₁ := plan_of_valid host model _ r₁
    (drawn_answering hloads (firstPrompt host r₁) plan silent []) hvalid
  have hdrawn := drawn_answering hloads (firstPrompt host r₁) plan silent []
  rw [List.nil_append, hfirst] at hdrawn
  rw [hfirst] at h hplan₁
  have hvalid₂ : validatePlan host plan r₂ (evidenceOf r₂) = [] := by
    by_contra hne
    have hsilent :=
      (drawn_other (repairPrompt_ne host r₂ hne) plan silent [firstPrompt host r₂]).trans
        (drawn_silent host _ _)
    have hplan₂ := plan_of_unrepaired host model _ r₂ hdrawn rfl hne hsilent
    rw [hplan₁, hplan₂] at h
    exact ne_deterministic hvalid r₂ h.1
  refine ⟨hvalid₂, ?_⟩
  have hplan₂ := plan_of_valid host model _ r₂ hdrawn hvalid₂
  have hprompts := h.2
  rwa [construct_prompt, construct_prompt, hplan₁, hplan₂] at hprompts

include hloads in
theorem SameConstruction.feedback {plan : Plan} {errors₁ errors₂ : List String}
    (h₁ : validatePlan host plan r₁ (evidenceOf r₁) = errors₁) (hne₁ : errors₁ ≠ [])
    (h₂ : validatePlan host plan r₂ (evidenceOf r₂) = errors₂) (hne₂ : errors₂ ≠ []) :
    feedbackText errors₁ = feedbackText errors₂ := by
  by_contra hne
  have hfirst := hsame.prompt hloads
  have hrepair : repairPrompt host r₂ errors₂ ≠ repairPrompt host r₁ errors₁ := by
    rw [repairPrompt_eq host r₂ hne₂, repairPrompt_eq host r₁ hne₁, hfirst]
    simpa using Ne.symm hne
  set repair := answering (repairPrompt host r₁ errors₁) (probe host r₁ [] [] []) silent
  set reply := answering (firstPrompt host r₁) plan repair
  have hplan₁ : (construct host model (deterministic reply) r₁).1.promptPlan =
      probe host r₁ [] [] [] :=
    plan_of_repair host model _ r₁ (drawn_answering hloads _ _ _ []) h₁ hne₁
      ((drawn_other (repairPrompt_ne host r₁ hne₁) _ _ [_]).trans
        (drawn_answering hloads _ _ _ [_]))
      (probe_valid r₁)
  have hdrawn : drawn host (deterministic reply) [firstPrompt host r₂] = .ok (some plan) := by
    rw [← hfirst]
    exact drawn_answering hloads _ _ _ []
  have hsecond : repairPrompt host r₂ errors₂ ≠ firstPrompt host r₁ := by
    rw [hfirst]
    exact repairPrompt_ne host r₂ hne₂
  have hplan₂ := plan_of_unrepaired host model _ r₂ hdrawn h₂ hne₂
    ((drawn_other hsecond _ _ [_]).trans
      ((drawn_other hrepair _ _ [_]).trans (drawn_silent host [_] _)))
  have h := (hsame reply).1
  rw [hplan₁, hplan₂] at h
  exact ne_deterministic (probe_valid r₁) r₂ h

theorem SameConstruction.workItem :
    hashWorkItem host r₁.rawWorkItem = hashWorkItem host r₂.rawWorkItem :=
  congrArg Plan.rawWorkItemHash hsame.deterministicPlan

theorem SameConstruction.tools : r₁.inheritedTools = r₂.inheritedTools :=
  congrArg Plan.allowedTools hsame.deterministicPlan

theorem SameConstruction.constraints : r₁.userConstraints = r₂.userConstraints := by
  have htexts (r : Request) :
      (buildDeterministicPlan host r).hardConstraints.map (·.text) = r.userConstraints :=
    List.ext_getElem (by simp [buildDeterministicPlan]) (by simp [buildDeterministicPlan])
  rw [← htexts r₁, ← htexts r₂, hsame.deterministicPlan]

include hloads in
theorem SameConstruction.covered {text : String} (h : Covered r₁ text) : Covered r₂ text := by
  by_contra hnot
  set hc : HardConstraint := ⟨text, "policy", "policy:"⟩ with hhc
  have h₁ : validatePlan host (probe host r₁ [hc] [] []) r₁ (evidenceOf r₁) =
      ownErrors host 0 hc := by
    rw [probe_errors rfl]
    simp [errorsOf, constraintErrors_eq, check, h, hhc]
  have h₂ : validatePlan host (probe host r₁ [hc] [] []) r₂ (evidenceOf r₂) =
      ownErrors host 0 hc ++ [inventedText host 0 hc] := by
    rw [probe_errors hsame.workItem]
    simp [errorsOf, constraintErrors_eq, check, hnot, hhc]
  by_cases hnil : ownErrors host 0 hc = []
  · have hvalid := (hsame.valid hloads (h₁.trans hnil)).1
    rw [h₂] at hvalid
    simp at hvalid
  · exact feedbackText_concat_ne hnil _ (hsame.feedback hloads h₁ hnil h₂ (by simp))

include hloads in
lemma SameConstruction.attested {id s : String}
    (h : ∃ a, authorityById (evidenceOf r₁) id = some a ∧ (s = "" ∨ s = a)) :
    ∃ a, authorityById (evidenceOf r₂) id = some a ∧ (s = "" ∨ s = a) := by
  have hvalid := (@claim_valid_iff host r₁ r₁ rfl id s).mpr h
  exact (claim_valid_iff hsame.workItem id s).mp (hsame.valid hloads hvalid).1

include hloads in
theorem SameConstruction.authority (id : String) :
    authorityById (evidenceOf r₁) id = authorityById (evidenceOf r₂) id :=
  eq_of_attested fun _ => ⟨hsame.attested hloads, hsame.symm.attested hloads⟩

end Necessary

variable (host) in
/-- The rest of the prompt after the path of the one target. -/
def afterPath (request other : Request) : String :=
  " symbols=" ++ quotedList host [] ++ " evidence=" ++ quotedList host [] ++
    after (evidenceBlock (evidenceOf other) ++ closingParts (probe host request [] [] []) other)

variable (host) in
lemma renderPrompt_targets (request other : Request) (path : String) :
    renderPrompt host (probe host request [] [] [⟨path, [], []⟩]) other (evidenceOf other) =
      joinParts (headParts other) ++ ("\n\n## Relevant targets\n-" ++ (" " ++
        (path ++ afterPath host request other))) := by
  have hmark : ("\n\n## Relevant targets\n-" : String) =
      "\n\n" ++ ("## Relevant targets" ++ ("\n" ++ "-")) := rfl
  have hdash : ("- " : String) = "-" ++ " " := rfl
  simp only [renderPrompt, controlParts_eq, List.append_assoc]
  rw [joinParts_append_after (headParts_ne_nil other)]
  congr 1
  simp only [planParts, probe, listed, after_cons, joinLines, closingParts, afterPath,
    String.append_assoc, List.map_nil, if_pos, List.nil_append, List.map_cons, reduceCtorEq,
    if_false, List.cons_append, String.intercalate_singleton]
  rw [hmark, hdash, String.append_assoc, String.append_assoc, String.append_assoc,
    String.append_assoc]

section Rendered

variable {model} {r₁ r₂ : Request} (hsame : SameConstruction host model r₁ r₂)

include hsame hloads

lemma SameConstruction.targets (path : String) :
    renderPrompt host (probe host r₁ [] [] [⟨path, [], []⟩]) r₁ (evidenceOf r₁) =
      renderPrompt host (probe host r₁ [] [] [⟨path, [], []⟩]) r₂ (evidenceOf r₂) := by
  refine (hsame.valid hloads ?_).2
  rw [probe_errors rfl]
  rfl

theorem SameConstruction.head : joinParts (headParts r₁) = joinParts (headParts r₂) := by
  have hrun (n : ℕ) :
      ((joinParts (headParts r₁)).toList ++ "\n\n## Relevant targets\n-".toList) ++
          ' ' :: (List.replicate n 'x' ++ (afterPath host r₁ r₁).toList) =
        ((joinParts (headParts r₂)).toList ++ "\n\n## Relevant targets\n-".toList) ++
          ' ' :: (List.replicate n 'x' ++ (afterPath host r₁ r₂).toList) := by
    have h := hsame.targets hloads (String.ofList (List.replicate n 'x'))
    rw [renderPrompt_targets, renderPrompt_targets] at h
    have hlist := congrArg String.toList h
    simp only [String.toList_append, String.toList_ofList] at hlist
    rw [List.append_assoc, List.append_assoc]
    exact hlist
  exact String.toList_inj.mp (List.append_cancel_right (eq_of_run (by decide) hrun))

theorem SameConstruction.evidence :
    evidenceBlock (evidenceOf r₁) = evidenceBlock (evidenceOf r₂) := by
  have hblock (evidence : List EvidenceUnit) : (evidenceBlock evidence).length ≤ 1 := by
    simp only [evidenceBlock]
    split <;> simp
  have hclosing : closingParts (probe host r₁ [] [] []) r₁ =
      closingParts (probe host r₁ [] [] []) r₂ := by
    simp only [closingParts, hsame.tools]
  have h := hsame.targets hloads ""
  rw [renderPrompt_targets, renderPrompt_targets, hsame.head hloads] at h
  simp only [String.append_right_inj, afterPath, hclosing] at h
  exact block_of_after (hblock _) (hblock _) h

theorem SameConstruction.agree : Agree host r₁ r₂ where
  prompt := hsame.prompt hloads
  workItem := hsame.workItem
  tools := hsame.tools
  constraints := hsame.constraints
  covered _ := ⟨hsame.covered hloads, hsame.symm.covered hloads⟩
  authority := hsame.authority hloads
  head := hsame.head hloads
  evidence := hsame.evidence hloads

end Rendered

variable (host)

include hloads in
/-- The cache is sound for two requests with one key exactly when they agree. -/
theorem cacheSound_iff (r₁ r₂ : Request) :
    CacheSound host model r₁ r₂ ↔
      (constructionCacheKey host r₁ = constructionCacheKey host r₂ → Agree host r₁ r₂) := by
  constructor
  · exact fun h hkey => (h hkey).agree hloads
  · exact fun h hkey => (h hkey).sameConstruction model

end Key

/-! ### Two requests with one key -/

def toolRequest : Request := { nullRequest with inheritedTools := ["Bash"] }

/-- The key says nothing of the tools. -/
theorem tools_not_in_key : ¬ CacheSound nullHost "" toolRequest nullRequest := by
  intro h
  have htools : ["Bash"] = [] := (h rfl).tools
  simp at htools

/-- A host whose decoder is the reader of the library. -/
def readerHost : Host :=
  { nullHost with
    loads text :=
      match Json.read Json.FloatReader.fraction text.toList with
      | some value => .ok value
      | none       => .error ("JSONDecodeError", "Expecting value: line 1 column 1 (char 0)") }

lemma loadsPlans_readerHost : LoadsPlans readerHost := by
  intro plan
  simp [readerHost, read_planReply]

/-- Without evidence the budget for it does not matter. -/
theorem budget_not_read :
    CacheSound readerHost "" nullRequest { nullRequest with inputBudgetTokens := 10 } :=
  (cacheSound_iff readerHost "" loadsPlans_readerHost _ _).mpr fun _ =>
    { prompt := rfl, workItem := rfl, tools := rfl, constraints := rfl, covered := fun _ => .rfl,
      authority := fun _ => rfl, head := rfl, evidence := rfl }

end AgenticDynamics.Knowledge.PromptPlan
