import AgenticDynamics.Library.Joined
import AgenticDynamics.Knowledge.PromptConstruction

/-!
# Where the constraints of a plan come from

A hard constraint names its source. Its text is looked up in the user's constraints, joined line by
line, and in the pinned policy, whatever source it names: it is found in the other source's text as
well, and where the end of one constraint meets the beginning of the next.
-/

namespace AgenticDynamics.Knowledge.PromptPlan

open Python Joined

section Origin

variable (request : Request) (evidence : List EvidenceUnit)

/-- What an accepted plan says comes from where it says. -/
structure OriginKept (plan : Plan) : Prop where
  user : ∀ hc ∈ plan.hardConstraints, hc.source = "user" →
    ∃ line ∈ request.userConstraints, within hc.text line = true
  policy : ∀ hc ∈ plan.hardConstraints, hc.source = "policy" →
    within hc.text request.pinnedPolicy = true
  claims : ∀ claim ∈ plan.evidenceClaims, ∀ id ∈ claim.evidenceIds, id ∈ scopeOf evidence
  targets : ∀ target ∈ plan.relevantTargets, ∀ id ∈ target.evidenceIds, id ∈ scopeOf evidence
  tools : ∀ tool ∈ plan.allowedTools, tool ∈ request.inheritedTools

/-- The text reaches over a line break from one of the user's constraints into the next. -/
def Straddles (text : String) : Prop :=
  '\n' ∈ text.toList ∧ within text (joinLines request.userConstraints) = true ∧
    ∀ line ∈ request.userConstraints, within text line = false

/-- The text is found in one text and not in the other. -/
def OnlyIn (text there here : String) : Prop :=
  within text there = true ∧ within text here = false

/-- The text is not found where the constraint says that it comes from. -/
def Borrowed (hc : HardConstraint) : Prop :=
  hc.source = "user" ∧
      (OnlyIn hc.text request.pinnedPolicy (joinLines request.userConstraints) ∨
        Straddles request hc.text) ∨
    hc.source = "policy" ∧
      OnlyIn hc.text (joinLines request.userConstraints) request.pinnedPolicy

end Origin

section Accepted

variable {host : Host} {plan : Plan} {request : Request} {evidence : List EvidenceUnit}

/-! ### What an accepted plan has passed -/

lemma constraint_found {i : ℕ} {hc : HardConstraint}
    (h : constraintErrors host request i hc = []) :
    hc.text ≠ "" ∧ (within hc.text (joinLines request.userConstraints) = true ∨
      within hc.text request.pinnedPolicy = true) := by
  simp only [constraintErrors, List.append_eq_nil_iff, check_eq_nil] at h
  obtain ⟨⟨⟨⟨⟨hfilled, -⟩, -⟩, -⟩, -⟩, hfound⟩ := h
  refine ⟨?_, hfound⟩
  rintro hempty
  exact hfilled (by rw [hempty]; decide)

lemma scope_kept {name : String} {ids : List String}
    (h : scopeErrors host evidence name ids = []) : ∀ id ∈ ids, id ∈ scopeOf evidence := by
  intro id hid
  rw [scopeErrors, List.flatMap_eq_nil_iff] at h
  exact check_eq_nil.mp (h id hid)

lemma claim_scope_kept {i : ℕ} {claim : EvidenceClaim}
    (h : claimErrors host evidence i claim = []) :
    ∀ id ∈ claim.evidenceIds, id ∈ scopeOf evidence := by
  simp only [claimErrors, List.append_eq_nil_iff] at h
  exact scope_kept h.1.2

/-! ### Texts that are found -/

lemma within_line_of_joined {text : String} {lines : List String} (hne : text ≠ "")
    (hline : '\n' ∉ text.toList) (h : within text (joinLines lines) = true) :
    ∃ line ∈ lines, within text line = true := by
  have hne' : text.toList ≠ [] := fun hnil => hne (String.toList_eq_nil_iff.mp hnil)
  simp only [within, decide_eq_true_eq, joinLines, String.toList_intercalate] at h ⊢
  obtain ⟨l, hl, hin⟩ := (infix_intercalate_iff hne' hline).mp h
  obtain ⟨line, hmem, rfl⟩ := List.mem_map.mp hl
  exact ⟨line, hmem, hin⟩

lemma within_joined {text line : String} {lines : List String} (hmem : line ∈ lines)
    (h : within text line = true) : within text (joinLines lines) = true := by
  simp only [within, decide_eq_true_eq, joinLines, String.toList_intercalate] at h ⊢
  exact h.trans (infix_intercalate_of_mem (List.mem_map_of_mem hmem))

lemma user_origin_iff {text : String} (hne : text ≠ "")
    (hfound : within text (joinLines request.userConstraints) = true ∨
      within text request.pinnedPolicy = true) :
    (∃ line ∈ request.userConstraints, within text line = true) ↔
      ¬ (OnlyIn text request.pinnedPolicy (joinLines request.userConstraints) ∨
        Straddles request text) := by
  constructor
  · rintro ⟨line, hmem, hin⟩ (⟨-, hout⟩ | ⟨-, -, hnone⟩)
    · rw [within_joined hmem hin] at hout
      cases hout
    · rw [hnone line hmem] at hin
      cases hin
  · intro h
    rw [not_or] at h
    have hjoined : within text (joinLines request.userConstraints) = true := by
      rcases hfound with hjoined | hpolicy
      · exact hjoined
      · by_contra hout
        exact h.1 ⟨hpolicy, by simpa using hout⟩
    by_cases hline : '\n' ∈ text.toList
    · by_contra hnone
      push Not at hnone
      exact h.2 ⟨hline, hjoined, fun line hmem => by simpa using hnone line hmem⟩
    · exact within_line_of_joined hne hline hjoined

lemma policy_origin_iff {text : String}
    (hfound : within text (joinLines request.userConstraints) = true ∨
      within text request.pinnedPolicy = true) :
    within text request.pinnedPolicy = true ↔
      ¬ OnlyIn text (joinLines request.userConstraints) request.pinnedPolicy := by
  constructor
  · rintro hpolicy ⟨-, hout⟩
    rw [hpolicy] at hout
    cases hout
  · intro h
    rcases hfound with hjoined | hpolicy
    · by_contra hout
      exact h ⟨hjoined, by simpa using hout⟩
    · exact hpolicy

/-- Of an accepted plan everything comes from where it says exactly if no constraint is borrowed. -/
theorem origin_kept_iff (hvalid : validatePlan host plan request evidence = []) :
    OriginKept request evidence plan ↔ ∀ hc ∈ plan.hardConstraints, ¬ Borrowed request hc := by
  simp only [validatePlan, List.append_eq_nil_iff, check_eq_nil] at hvalid
  obtain ⟨⟨⟨⟨⟨-, hconstraints⟩, hclaims⟩, htargets⟩, -⟩, htools⟩ := hvalid
  have hfound : ∀ hc ∈ plan.hardConstraints, hc.text ≠ "" ∧
      (within hc.text (joinLines request.userConstraints) = true ∨
        within hc.text request.pinnedPolicy = true) :=
    forall_mem_of_errorsOf (fun _ _ herrors => constraint_found herrors) hconstraints
  constructor
  · intro hkept hc hmem hborrowed
    obtain ⟨hne, hin⟩ := hfound hc hmem
    rcases hborrowed with ⟨hsource, huser⟩ | ⟨hsource, hpolicy⟩
    · exact (user_origin_iff hne hin).mp (hkept.user hc hmem hsource) huser
    · exact (policy_origin_iff hin).mp (hkept.policy hc hmem hsource) hpolicy
  · intro hnone
    exact
      { user := fun hc hmem hsource => (user_origin_iff (hfound hc hmem).1 (hfound hc hmem).2).mpr
          fun huser => hnone hc hmem (.inl ⟨hsource, huser⟩)
        policy := fun hc hmem hsource => (policy_origin_iff (hfound hc hmem).2).mpr
          fun hpolicy => hnone hc hmem (.inr ⟨hsource, hpolicy⟩)
        claims := forall_mem_of_errorsOf (fun _ _ herrors => claim_scope_kept herrors) hclaims
        targets := forall_mem_of_errorsOf (fun _ _ herrors => scope_kept herrors) htargets
        tools := by simpa using htools }

end Accepted

/-! ### Plans at hand -/

def releaseRequest : Request where
  rawWorkItem := "Cut a release."
  phaseObjective := ""
  pinnedPolicy := "Never force-push."
  evidence := []
  inheritedTools := ["bash"]
  userConstraints := ["Tag it", "Do not touch prod"]
  constructorModel := ""
  schemaVersion := planSchema
  inputBudgetTokens := 3000

def releasePlan (hc : HardConstraint) : Plan where
  schemaVersion := planSchema
  taskIntent := "Release"
  rawWorkItemHash := "sha256:Cut a release."
  hardConstraints := [hc]
  relevantTargets := []
  evidenceClaims := []
  conflictsAndUnknowns := []
  acceptanceChecks := []
  allowedTools := ["bash"]
  executorInstructions := ""

theorem tagged_release_kept :
    OriginKept releaseRequest [] (releasePlan ⟨"Tag it", "user", "user:1"⟩) := by
  refine (@origin_kept_iff nullHost _ _ _ (by decide)).mpr ?_
  intro hc hmem hborrowed
  obtain rfl := List.mem_singleton.mp hmem
  rcases hborrowed with ⟨-, ⟨-, hout⟩ | ⟨hline, -⟩⟩ | ⟨hsource, -⟩
  · exact absurd hout (by decide)
  · exact absurd hline (by decide)
  · exact absurd hsource (by decide)

theorem borrowed_constraints_accepted :
    (validatePlan nullHost (releasePlan ⟨"force-push", "user", "user:1"⟩) releaseRequest [] = [] ∧
      ¬ OriginKept releaseRequest [] (releasePlan ⟨"force-push", "user", "user:1"⟩)) ∧
    (validatePlan nullHost (releasePlan ⟨"it\nDo", "user", "user:1"⟩) releaseRequest [] = [] ∧
      ¬ OriginKept releaseRequest [] (releasePlan ⟨"it\nDo", "user", "user:1"⟩)) ∧
    validatePlan nullHost (releasePlan ⟨"Tag it", "policy", "policy:p"⟩) releaseRequest [] = [] ∧
      ¬ OriginKept releaseRequest [] (releasePlan ⟨"Tag it", "policy", "policy:p"⟩) := by
  refine ⟨⟨by decide, fun h => ?_⟩, ⟨by decide, fun h => ?_⟩, by decide, fun h => ?_⟩
  · exact absurd (h.user _ List.mem_cons_self rfl) (by decide)
  · exact absurd (h.user _ List.mem_cons_self rfl) (by decide)
  · exact absurd (h.policy _ List.mem_cons_self rfl) (by decide)

end AgenticDynamics.Knowledge.PromptPlan
