import AgenticDynamics.Context.OrderIndependence

/-!
# Advisory facts

An advisory fact is in the store like any other, and the compiler looks at it like at any other.
One that gives way to the facts of a slot leaves the context as it was, but for the reason why a
fact is missing that nothing else could supply.
-/

namespace AgenticDynamics.Context

open Python

/-- `t` is `s` with a fact added, somewhere in the order of the store. -/
structure Adds (a : CanonicalFact) (s t : FactStore) : Prop where
  currentFacts : ∀ predicate, ∃ before after, s.currentFacts predicate = before ++ after ∧
    t.currentFacts predicate =
      before ++ [a].filter (fun f => f.predicate = predicate ∧ f.lifecycleState = "current") ++ after
  resolve : ∀ id ≠ a.factId, t.resolve id = s.resolve id
  currentVersions : ∀ entity ≠ a.factEntityId, t.currentVersions entity = s.currentVersions entity

lemma adds_inMemoryFactStore (a : CanonicalFact) (before after : List CanonicalFact) :
    Adds a (inMemoryFactStore (before ++ after)) (inMemoryFactStore (before ++ a :: after)) := by
  constructor
  · intro predicate
    refine ⟨_, _, List.filter_append _ _, ?_⟩
    rw [List.append_cons, ← List.filter_append, ← List.filter_append]
    rfl
  · intro id hid
    simp only [inMemoryFactStore, List.find?_append, List.find?_cons]
    rw [decide_eq_false fun h => hid h.symm]
  · intro entity hentity
    simp only [inMemoryFactStore, List.filter_append, List.filter_cons]
    rw [decide_eq_false fun h => hentity h.symm]
    rfl

section Yields

variable (host : Host) (now decisionScopePath : String) (s t : FactStore) (a : CanonicalFact)
  (req : FactRequirement)

/-- Nothing else could fill the slot, and the requirement does not take what is advisory. -/
structure Alone (target : String) : Prop where
  visible : visibleFacts s req target = []
  below : req.scope = "self" → descendants decisionScopePath s req = []
  current : factState now t a = .current
  floor : .derived ≤ req.floor

def Concerns : Prop := a.predicate = req.fact ∧ a.lifecycleState = "current"

/-- The added fact gives way: where it can be seen, a visible fact has a smaller entity, and where
the decision falls back on what is below it, a fact there was observed later, unless it is alone;
and no other fact of the requirement has its id, its entity or cites it. -/
structure Yields : Prop where
  visible : ∀ target, resolveRequirementScope req.scope decisionScopePath = .ok (some target) →
    Concerns a req → scopeVisible target a.scopePath (predicateSpec? req.fact) →
      (∃ f ∈ visibleFacts s req target, f.factEntityId < a.factEntityId) ∨
        Alone now decisionScopePath s t a req target
  below : ∀ target, resolveRequirementScope req.scope decisionScopePath = .ok (some target) →
    Concerns a req → ¬ scopeVisible target a.scopePath (predicateSpec? req.fact) →
      visibleFacts s req target = [] → req.scope = "self" →
        startsWith a.scopePath (decisionScopePath ++ "/") →
          (∃ f ∈ descendants decisionScopePath s req, a.observedAt < f.observedAt) ∨
            Alone now decisionScopePath s t a req target
  apart : ∀ f ∈ s.currentFacts req.fact,
    f.factId ≠ a.factId ∧ f.factEntityId ≠ a.factEntityId ∧ a.factId ∉ f.evidenceIds

/-- Where the fact is listed as advisory, it has an age. -/
def Ages : Prop :=
  ∀ target, resolveRequirementScope req.scope decisionScopePath = .ok (some target) →
    Concerns a req → scopeVisible target a.scopePath (predicateSpec? req.fact) →
      ∃ age, ageSeconds host now a.observedAt = .ok age

end Yields

/-! ### Slots -/

lemma slotGroup_insert {before after : List CanonicalFact} {a f : CanonicalFact}
    (hf : f ∈ before ++ after) (hlt : f.factEntityId < a.factEntityId) :
    slotGroup (before ++ a :: after) = slotGroup (before ++ after) := by
  cases hmin : ((before ++ after).map CanonicalFact.factEntityId).min? with
  | none =>
    rw [List.min?_eq_none_iff, List.map_eq_nil_iff] at hmin
    rw [hmin] at hf
    cases hf
  | some least =>
    have hleast := List.min?_eq_some_iff.mp hmin
    have hbelow : least < a.factEntityId :=
      (hleast.2 _ (List.mem_map_of_mem hf)).trans_lt hlt
    have hmin' : ((before ++ a :: after).map CanonicalFact.factEntityId).min? = some least := by
      rw [List.min?_eq_some_iff]
      constructor
      · have hmem := hleast.1
        simp only [List.map_append, List.map_cons, List.mem_append, List.mem_cons] at hmem ⊢
        exact hmem.imp_right .inr
      · intro entity hentity
        simp only [List.map_append, List.map_cons, List.mem_append, List.mem_cons] at hentity
        rcases hentity with hentity | rfl | hentity
        · exact hleast.2 _ (by simp [List.mem_append, hentity])
        · exact hbelow.le
        · apply hleast.2
          rw [List.map_append]
          exact List.mem_append_right _ hentity
    rw [slotGroup_eq hmin, slotGroup_eq hmin', List.filter_append, List.filter_append,
      List.filter_cons_of_neg (by simpa using hbelow.ne')]

lemma argmax_insert {α β : Type} [LinearOrder β] (key : α → β) (before after : List α) (a : α) :
    (before ++ a :: after).argmax key = some a ∨
      (before ++ a :: after).argmax key = (before ++ after).argmax key := by
  induction after using List.reverseRecOn with
  | nil =>
    rw [List.append_nil, List.argmax_concat]
    cases before.argmax key with
    | none => exact .inl rfl
    | some c =>
      simp only
      split
      · exact .inl rfl
      · exact .inr rfl
  | append_singleton after x ih =>
    rw [← List.cons_append, ← List.append_assoc, ← List.append_assoc, List.argmax_concat,
      List.argmax_concat]
    rcases ih with hfirst | hsame
    · rw [hfirst]
      by_cases hlt : key a < key x
      · simp only [hlt, if_true]
        right
        cases hmax : (before ++ after).argmax key with
        | none => rfl
        | some c =>
          have hc : c ∈ before ++ a :: after := by
            have hmem := List.argmax_mem hmax
            simp only [List.mem_append, List.mem_cons] at hmem ⊢
            exact hmem.imp_right .inr
          have hle := List.le_of_mem_argmax hc hfirst
          simp only [hle.trans_lt hlt, if_true]
      · simp only [hlt, if_false]
        exact .inl trivial
    · rw [hsame]
      exact .inr rfl

lemma argmax_insert_of_lt {α β : Type} [LinearOrder β] {key : α → β} {before after : List α}
    {a b : α} (hb : b ∈ before ++ after) (hlt : key a < key b) :
    (before ++ a :: after).argmax key = (before ++ after).argmax key := by
  refine (argmax_insert key before after a).resolve_left fun hfirst => ?_
  have hmem : b ∈ before ++ a :: after := by
    simp only [List.mem_append, List.mem_cons] at hb ⊢
    exact hb.imp_right .inr
  exact absurd hlt (not_lt.mpr (List.le_of_mem_argmax hmem hfirst))

section Slots

variable {host : Host} {now decisionScopePath target : String} {s t : FactStore}
  {a : CanonicalFact} {req : FactRequirement}

lemma Adds.currentFacts_of_not_concerns (hadds : Adds a s t) (h : ¬ Concerns a req) :
    t.currentFacts req.fact = s.currentFacts req.fact := by
  obtain ⟨before, after, hs, ht⟩ := hadds.currentFacts req.fact
  rw [ht, hs, List.filter_cons_of_neg (by simpa [Concerns] using h), List.filter_nil,
    List.append_nil]

lemma Adds.currentFacts_of_concerns (hadds : Adds a s t) (h : Concerns a req) :
    ∃ before after, s.currentFacts req.fact = before ++ after ∧
      t.currentFacts req.fact = before ++ a :: after := by
  obtain ⟨before, after, hs, ht⟩ := hadds.currentFacts req.fact
  refine ⟨before, after, hs, ?_⟩
  rw [ht, List.filter_cons_of_pos (by simpa [Concerns] using h), List.filter_nil,
    List.append_assoc, List.singleton_append]

lemma candidates_congr (hvisible : visibleFacts t req target = visibleFacts s req target)
    (hbelow : visibleFacts s req target = [] → req.scope = "self" →
      (descendants decisionScopePath t req).argmax CanonicalFact.observedAt =
        (descendants decisionScopePath s req).argmax CanonicalFact.observedAt) :
    candidates decisionScopePath t req target = candidates decisionScopePath s req target := by
  unfold candidates
  rw [hvisible]
  split
  · next h => rw [hbelow h.1 h.2]
  · rfl

lemma Alone.slot (halone : Alone now decisionScopePath s t a req target)
    (h : visibleFacts t req target = [a] ∨ visibleFacts t req target = [] ∧ req.scope = "self" ∧
      descendants decisionScopePath t req = [a]) :
    slotGroup (candidates decisionScopePath s req target) = [] ∧
      slotGroup (candidates decisionScopePath t req target) = [a] := by
  constructor
  · rw [slotGroup_eq_nil]
    unfold candidates
    split
    · next hcase => rw [halone.below hcase.2]; rfl
    · exact halone.visible
  · rw [← slotGroup_singleton a]
    congr 1
    unfold candidates
    rcases h with hvisible | ⟨hvisible, hself, hbelow⟩
    · rw [hvisible, if_neg (by simp)]
    · rw [hvisible, if_pos ⟨rfl, hself⟩, hbelow]
      rfl

lemma Yields.slot (hyields : Yields now decisionScopePath s t a req) (hadds : Adds a s t)
    (htarget : resolveRequirementScope req.scope decisionScopePath = .ok (some target)) :
    slotGroup (candidates decisionScopePath t req target) =
        slotGroup (candidates decisionScopePath s req target) ∨
      slotGroup (candidates decisionScopePath s req target) = [] ∧
        slotGroup (candidates decisionScopePath t req target) = [a] ∧
        Alone now decisionScopePath s t a req target := by
  by_cases hconcerns : Concerns a req
  · obtain ⟨before, after, hs, ht⟩ := hadds.currentFacts_of_concerns hconcerns
    by_cases hseen : scopeVisible target a.scopePath (predicateSpec? req.fact)
    · -- the visible facts have one more
      let sees (f : CanonicalFact) : Bool :=
        scopeVisible target f.scopePath (predicateSpec? req.fact)
      have hvisible : visibleFacts s req target = before.filter sees ++ after.filter sees := by
        rw [visibleFacts, hs, List.filter_append]
      have hvisible' : visibleFacts t req target =
          before.filter sees ++ a :: after.filter sees := by
        rw [visibleFacts, ht, List.filter_append, List.filter_cons_of_pos (by exact hseen)]
      rcases hyields.visible target htarget hconcerns hseen with ⟨f, hf, hlt⟩ | halone
      · left
        have hcandidates : candidates decisionScopePath s req target =
            visibleFacts s req target := by
          rw [candidates, if_neg fun hcase => List.ne_nil_of_mem hf hcase.1]
        have hcandidates' : candidates decisionScopePath t req target =
            visibleFacts t req target := by
          rw [candidates, if_neg fun hcase => by simp [hvisible'] at hcase]
        rw [hcandidates, hcandidates', hvisible, hvisible']
        rw [hvisible] at hf
        exact slotGroup_insert hf hlt
      · right
        have hnil := halone.visible
        rw [hvisible, List.append_eq_nil_iff] at hnil
        rw [hnil.1, hnil.2, List.nil_append] at hvisible'
        obtain ⟨hbefore, hafter⟩ := halone.slot (.inl hvisible')
        exact ⟨hbefore, hafter, halone⟩
    · have hvisible : visibleFacts t req target = visibleFacts s req target := by
        rw [visibleFacts, visibleFacts, ht, hs, List.filter_append, List.filter_append,
          List.filter_cons_of_neg (by exact hseen)]
      let under (f : CanonicalFact) : Bool := startsWith f.scopePath (decisionScopePath ++ "/")
      have hdescendants : descendants decisionScopePath s req =
          before.filter under ++ after.filter under := by
        rw [descendants, hs, List.filter_append]
      by_cases hcase : visibleFacts s req target = [] ∧ req.scope = "self" ∧ under a
      · obtain ⟨hnone, hself, hunder⟩ := hcase
        have hdescendants' : descendants decisionScopePath t req =
            before.filter under ++ a :: after.filter under := by
          rw [descendants, ht, List.filter_append, List.filter_cons_of_pos (by exact hunder)]
        rcases hyields.below target htarget hconcerns hseen hnone hself hunder with
          ⟨f, hf, hlt⟩ | halone
        · left
          rw [candidates_congr hvisible fun _ _ => ?_]
          rw [hdescendants, hdescendants']
          rw [hdescendants] at hf
          exact argmax_insert_of_lt hf hlt
        · right
          have hnil := halone.below hself
          rw [hdescendants, List.append_eq_nil_iff] at hnil
          rw [hnil.1, hnil.2, List.nil_append] at hdescendants'
          obtain ⟨hbefore, hafter⟩ :=
            halone.slot (.inr ⟨hvisible.trans hnone, hself, hdescendants'⟩)
          exact ⟨hbefore, hafter, halone⟩
      · left
        rw [candidates_congr hvisible fun hnone hself => ?_]
        have hunder : ¬ under a := fun hunder => hcase ⟨hnone, hself, hunder⟩
        rw [descendants, descendants, ht, hs, List.filter_append, List.filter_append,
          List.filter_cons_of_neg (by exact hunder)]
  · left
    have hsame := hadds.currentFacts_of_not_concerns hconcerns
    rw [candidates_congr]
    · rw [visibleFacts, visibleFacts, hsame]
    · intro _ _
      rw [descendants, descendants, hsame]

/-! ### Judgements -/

lemma Adds.judge (hadds : Adds a s t) {fact : CanonicalFact} {group : List CanonicalFact}
    (hid : fact.factId ≠ a.factId) (hentity : fact.factEntityId ≠ a.factEntityId)
    (hcites : a.factId ∉ fact.evidenceIds) :
    judge host now t req fact group = judge host now s req fact group := by
  have hevidence : ∀ eid ∈ fact.evidenceIds, t.resolve eid = s.resolve eid := by
    intro eid heid
    apply hadds.resolve
    rintro rfl
    exact hcites heid
  have hown : ∀ state, ownRow t fact state = ownRow s fact state := by
    intro state
    simp only [ownRow, hadds.resolve _ hid]
  have hrivalled : rivalled t fact = rivalled s fact := by
    simp only [rivalled, hadds.currentVersions _ hentity]
  have hcascades : cascades t fact = cascades s fact := by
    rw [Bool.eq_iff_iff, cascades, cascades, List.any_eq_true, List.any_eq_true]
    apply exists_congr
    intro eid
    apply and_congr_right
    intro heid
    rw [hevidence eid heid]
  have hchain : verifyChain host fact t.resolve = verifyChain host fact s.resolve := by
    apply verifyChain_congr
    intro eid heid
    rw [hevidence eid heid]
  simp only [Context.judge, factState, hown, hrivalled, hcascades, hchain]

lemma authority_of_chain (hadvisory : a.epistemicStatus = "advisory")
    (hchain : verifyChain host a t.resolve = []) : a.authority = .advisory := by
  simp only [verifyChain, List.append_eq_nil_iff] at hchain
  obtain ⟨-, hlast⟩ := hchain
  split at hlast
  · cases hlast
  · next h =>
    rw [ne_eq, not_not, hadvisory] at h
    have hpair : (Authority.advisory, "[H]") = (a.authority, a.evidenceClass) := by
      simpa [epistemicMap, List.lookup_cons] using h
    exact (Prod.mk.inj hpair).1.symm

lemma Alone.judge (halone : Alone now decisionScopePath s t a req target)
    (hadvisory : a.epistemicStatus = "advisory") :
    ∃ reason ∈ ["broken_chain", "below_min_authority"],
      judge host now t req a [a] = .ok (unknownFor req reason) := by
  simp only [Context.judge, halone.current]
  by_cases hchain : verifyChain host a t.resolve = []
  · have hlow : a.authority < req.floor := by
      rw [authority_of_chain hadvisory hchain]
      exact lt_of_lt_of_le (by decide) halone.floor
    rw [if_neg (not_not.mpr hchain), if_pos hlow]
    exact ⟨_, by simp, rfl⟩
  · rw [if_pos hchain]
    exact ⟨_, by simp, rfl⟩

/-- The same resolution, unless nothing was there and the fact that is now is not enough. -/
def SameButReason (req : FactRequirement) (x y : Resolution) : Prop :=
  y = x ∨ x = unknownFor req "no_fact" ∧
    ∃ reason ∈ ["broken_chain", "below_min_authority"], y = unknownFor req reason

lemma Yields.resolveRequirement (hyields : Yields now decisionScopePath s t a req)
    (hadds : Adds a s t) (hadvisory : a.epistemicStatus = "advisory") :
    resolveRequirement host now decisionScopePath t req =
        resolveRequirement host now decisionScopePath s req ∨
      ∃ reason ∈ ["broken_chain", "below_min_authority"],
        resolveRequirement host now decisionScopePath s req = .ok (unknownFor req "no_fact") ∧
        resolveRequirement host now decisionScopePath t req = .ok (unknownFor req reason) := by
  cases hscope : resolveRequirementScope req.scope decisionScopePath with
  | error e =>
    left
    simp only [Context.resolveRequirement, hscope, bind, Except.bind]
  | ok target =>
    cases target with
    | none =>
      left
      simp only [Context.resolveRequirement, hscope, bind, Except.bind]
    | some target =>
      rcases hyields.slot hadds hscope with hsame | ⟨hempty, hslot, halone⟩
      · left
        cases hgroup : slotGroup (candidates decisionScopePath s req target) with
        | nil =>
          rw [resolveRequirement_of_empty hscope hgroup,
            resolveRequirement_of_empty hscope (hsame.trans hgroup)]
        | cons fact others =>
          rw [resolveRequirement_of_slot hscope hgroup,
            resolveRequirement_of_slot hscope (hsame.trans hgroup)]
          have hmem : fact ∈ candidates decisionScopePath s req target :=
            mem_slotGroup (by rw [hgroup]; simp)
          obtain ⟨hid, hentity, hcites⟩ := hyields.apart fact (currentFact_of_mem_candidates hmem)
          exact hadds.judge hid hentity hcites
      · right
        have hjudged : ∃ reason ∈ ["broken_chain", "below_min_authority"],
            judge host now t req a [a] = .ok (unknownFor req reason) := halone.judge hadvisory
        obtain ⟨reason, hreason, hjudge⟩ := hjudged
        refine ⟨reason, hreason, resolveRequirement_of_empty hscope hempty, ?_⟩
        rw [resolveRequirement_of_slot hscope hslot, hjudge]

end Slots

/-! ### Contexts -/

def SameUnknown (u u' : Unknown) : Prop :=
  u' = u ∨ u.reason = "no_fact" ∧ u'.reason ∈ ["broken_chain", "below_min_authority"] ∧
    u'.predicate = u.predicate ∧ u'.scope = u.scope ∧ u'.handling = u.handling

/-- The contexts are the same, but for the reasons why facts are missing. -/
structure SameButReasons (ctx ctx' : ControlContext) : Prop where
  invariants : ctx'.invariants = ctx.invariants
  workload : ctx'.workload = ctx.workload
  workflow : ctx'.workflow = ctx.workflow
  job : ctx'.job = ctx.job
  resource : ctx'.resource = ctx.resource
  conflicts : ctx'.conflicts = ctx.conflicts
  stale : ctx'.stale = ctx.stale
  unknowns : List.Forall₂ SameUnknown ctx.unknowns ctx'.unknowns
  admissible : ctx'.admissible = ctx.admissible
  refusal : ctx'.refusal = ctx.refusal

namespace SameButReason

variable {req : FactRequirement} {x y : Resolution}

lemma ref? (h : SameButReason req x y) : Resolved.ref? (req, y) = Resolved.ref? (req, x) := by
  obtain rfl | ⟨rfl, reason, -, rfl⟩ := h <;> rfl

lemma conflict? (h : SameButReason req x y) :
    Resolved.conflict? (req, y) = Resolved.conflict? (req, x) := by
  obtain rfl | ⟨rfl, reason, -, rfl⟩ := h <;> rfl

lemma stale? (h : SameButReason req x y) : Resolved.stale? (req, y) = Resolved.stale? (req, x) := by
  obtain rfl | ⟨rfl, reason, -, rfl⟩ := h <;> rfl

lemma refusal? (h : SameButReason req x y) :
    Resolved.refusal? (req, y) = Resolved.refusal? (req, x) := by
  obtain rfl | ⟨rfl, reason, -, rfl⟩ := h <;> rfl

lemma unknowns {reqs : List FactRequirement} {o o' : FactRequirement → Resolution}
    (h : ∀ r ∈ reqs, SameButReason r (o r) (o' r)) :
    List.Forall₂ SameUnknown (outcomes Resolved.unknown? reqs o)
      (outcomes Resolved.unknown? reqs o') := by
  induction reqs with
  | nil => exact .nil
  | cons r reqs ih =>
    obtain ⟨hr, hreqs⟩ := List.forall_mem_cons.mp h
    have htail := ih hreqs
    simp only [outcomes, List.filterMap_cons] at htail ⊢
    obtain hsame | ⟨hbefore, reason, hreason, hafter⟩ := hr
    · rw [hsame]
      cases Resolved.unknown? (r, o r) with
      | none => exact htail
      | some u => exact .cons (.inl rfl) htail
    · rw [hbefore, hafter]
      exact .cons (.inr ⟨rfl, hreason, rfl, rfl, rfl⟩) htail

end SameButReason

section Contexts

variable {host : Host} {now : String} {s t : FactStore} {a : CanonicalFact}
  {request : ContextRequest} {contract : ContractSpec} {challenge : Option ChallengeProfile}
  {effective : List FactRequirement}

lemma sameButReasons_compiled {advisory advisory' : List FactRef}
    (h : ∀ r ∈ contract.invariants ++ effective,
      SameButReason r (outcome host now request.scopePath s r)
        (outcome host now request.scopePath t r)) :
    SameButReasons (compiled host now s request contract effective advisory)
      (compiled host now t request contract effective advisory') := by
  have hkind : ∀ {α : Type} (kind : Resolved → Option α) (reqs : List FactRequirement),
      (∀ r ∈ reqs, kind (r, outcome host now request.scopePath t r) =
        kind (r, outcome host now request.scopePath s r)) →
      (reqs.map fun r => (r, outcome host now request.scopePath t r)).filterMap kind =
        (reqs.map fun r => (r, outcome host now request.scopePath s r)).filterMap kind := by
    intro α kind reqs hsame
    rw [List.filterMap_map, List.filterMap_map]
    exact List.filterMap_congr hsame
  have hbucket : ∀ name : String,
      ((effective.map fun r => (r, outcome host now request.scopePath t r)).filter
        fun r => Resolved.bucket r = name).filterMap Resolved.ref? =
      ((effective.map fun r => (r, outcome host now request.scopePath s r)).filter
        fun r => Resolved.bucket r = name).filterMap Resolved.ref? := by
    intro name
    rw [List.filter_map, List.filter_map]
    apply hkind
    intro r hr
    exact (h r (List.mem_append_right _ (List.mem_of_mem_filter hr))).ref?
  have hrefusals := hkind Resolved.refusal? (contract.invariants ++ effective)
    fun r hr => (h r hr).refusal?
  constructor
  · exact hkind Resolved.ref? _ fun r hr => (h r (List.mem_append_left _ hr)).ref?
  · exact hbucket "workload"
  · exact hbucket "workflow"
  · exact hbucket "job"
  · exact hbucket "resource"
  · simp only [compiled, snapshot, ← List.map_append]
    exact hkind Resolved.conflict? _ fun r hr => (h r hr).conflict?
  · simp only [compiled, snapshot, ← List.map_append]
    exact hkind Resolved.stale? _ fun r hr => (h r hr).stale?
  · simp only [compiled, snapshot, ← List.map_append, List.filterMap_map]
    exact SameButReason.unknowns h
  · simp only [compiled, snapshot, ← List.map_append, hrefusals]
  · simp only [compiled, snapshot, ← List.map_append, hrefusals]

lemma mem_visibleFacts_adds {r : FactRequirement} {target : String} (hadds : Adds a s t)
    {f : CanonicalFact} : f ∈ visibleFacts t r target ↔ f ∈ visibleFacts s r target ∨
      f = a ∧ Concerns a r ∧ scopeVisible target a.scopePath (predicateSpec? r.fact) := by
  simp only [visibleFacts, List.mem_filter]
  by_cases hconcerns : Concerns a r
  · obtain ⟨before, after, hs, ht⟩ := hadds.currentFacts_of_concerns hconcerns
    simp only [hs, ht, List.mem_append, List.mem_cons, hconcerns, true_and]
    constructor
    · rintro ⟨hbefore | rfl | hafter, hseen⟩
      · exact .inl ⟨.inl hbefore, hseen⟩
      · exact .inr ⟨rfl, hseen⟩
      · exact .inl ⟨.inr hafter, hseen⟩
    · rintro (⟨hmem, hseen⟩ | ⟨rfl, hseen⟩)
      · exact ⟨hmem.imp_right .inr, hseen⟩
      · exact ⟨.inr (.inl rfl), hseen⟩
  · rw [hadds.currentFacts_of_not_concerns hconcerns]
    simp [hconcerns]

lemma Ages.advisoryFor {r : FactRequirement} (hages : Ages host now request.scopePath a r)
    (hadds : Adds a s t) :
    (∃ refs, Context.advisoryFor host now t request.scopePath r = .ok refs) ↔
      ∃ refs, Context.advisoryFor host now s request.scopePath r = .ok refs := by
  cases hscope : resolveRequirementScope r.scope request.scopePath with
  | error e => simp only [Context.advisoryFor, hscope, bind, Except.bind]
  | ok target =>
    cases target with
    | none => simp only [Context.advisoryFor, hscope, bind, Except.bind]
    | some target =>
      simp only [Context.advisoryFor, hscope, bind, Except.bind, mapM_isOk, List.mem_filter]
      constructor
      · rintro hall f ⟨hf, hadvisory⟩
        exact hall f ⟨(mem_visibleFacts_adds hadds).mpr (.inl hf), hadvisory⟩
      · rintro hall f ⟨hf, hadvisory⟩
        obtain hf | ⟨rfl, hconcerns, hseen⟩ := (mem_visibleFacts_adds hadds).mp hf
        · exact hall f ⟨hf, hadvisory⟩
        · obtain ⟨age, hage⟩ := hages target hscope hconcerns hseen
          exact ⟨_, toFactRef_eq_ok.mpr ⟨age, hage, rfl⟩⟩

end Contexts

def opinion (fact : CanonicalFact) : CanonicalFact :=
  { fact with epistemicStatus := "advisory", authority := .advisory, evidenceClass := "[H]" }

/-- Somebody thinks that the tests of a run pass. -/
def testOpinion : CanonicalFact := opinion (verifiedFact "r1" "true")

/-- Somebody thinks that phases remain, under a smaller entity. -/
def phaseOpinion : CanonicalFact :=
  { opinion remainingFact with factEntityId := "e-opinion", factId := "f-opinion" }

end AgenticDynamics.Context
