import AgenticDynamics.Context.Outcomes

/-!
# Compiled contexts

When a compilation returns, and that two compiled contexts of a contract have the same canonical
parts exactly when every requirement came out the same.
-/

namespace AgenticDynamics.Context

open Python

/-! ### Facts of a slot -/

/-- A store returns under a predicate the facts of that predicate. -/
def FactStore.Lawful (store : FactStore) : Prop :=
  ∀ predicate, ∀ f ∈ store.currentFacts predicate, f.predicate = predicate

lemma inMemoryFactStore_lawful (facts : List CanonicalFact) :
    (inMemoryFactStore facts).Lawful := by
  intro predicate f hf
  simp only [inMemoryFactStore, List.mem_filter, decide_eq_true_eq] at hf
  exact hf.2.1

section Slot

variable {host : Host} {now decisionScopePath : String} {store : FactStore}
  {req : FactRequirement}

lemma mem_slotGroup {candidates : List CanonicalFact} {f : CanonicalFact}
    (hf : f ∈ slotGroup candidates) : f ∈ candidates := by
  unfold slotGroup at hf
  split at hf
  · simp at hf
  · exact List.mem_of_mem_filter ((List.perm_insertionSort _ _).subset hf)

lemma mem_candidates {target : String} {f : CanonicalFact}
    (hf : f ∈ candidates decisionScopePath store req target) :
    f ∈ visibleFacts store req target ∨
      f ∈ (descendants decisionScopePath store req).argmax CanonicalFact.observedAt := by
  unfold candidates at hf
  split at hf
  · exact .inr (Option.mem_toList.mp hf)
  · exact .inl hf

lemma currentFact_of_mem_candidates {target : String} {f : CanonicalFact}
    (hf : f ∈ candidates decisionScopePath store req target) : f ∈ store.currentFacts req.fact := by
  rcases mem_candidates hf with hf | hf
  · exact List.mem_of_mem_filter hf
  · exact List.mem_of_mem_filter (List.argmax_mem hf)

lemma candidate_of_slotOf {group : List CanonicalFact}
    (h : slotOf decisionScopePath store req = .ok (some group)) :
    ∃ target, resolveRequirementScope req.scope decisionScopePath = .ok (some target) ∧
      ∀ f ∈ group, f ∈ candidates decisionScopePath store req target := by
  unfold slotOf at h
  cases hscope : resolveRequirementScope req.scope decisionScopePath with
  | error e => simp [hscope, Except.map] at h
  | ok target =>
    cases target with
    | none => simp [hscope, Except.map] at h
    | some target =>
      simp only [hscope, Except.map, Option.map_some, Except.ok.injEq, Option.some.injEq] at h
      refine ⟨target, rfl, fun f hf => ?_⟩
      rw [← h] at hf
      exact mem_slotGroup hf

lemma currentFact_of_slotOf {group : List CanonicalFact}
    (h : slotOf decisionScopePath store req = .ok (some group)) {f : CanonicalFact}
    (hf : f ∈ group) : f ∈ store.currentFacts req.fact := by
  obtain ⟨target, -, hmem⟩ := candidate_of_slotOf h
  exact currentFact_of_mem_candidates (hmem f hf)

lemma toFactRef_eq_ok {fact : CanonicalFact} {ref : FactRef} :
    toFactRef host now fact = .ok ref ↔ ∃ age, ageSeconds host now fact.observedAt = .ok age ∧
      ref = ⟨fact.factId, fact.predicate, fact.subjectId, fact.scopePath, fact.value,
        fact.valueType, fact.authority.name, fact.epistemicStatus, fact.observedAt, age,
        fact.reducerVersion, fact.evidenceIds⟩ := by
  unfold toFactRef
  rw [bind_eq_ok]
  simp only [pure, Except.pure, Except.ok.injEq]
  exact exists_congr fun age => and_congr_right fun _ => eq_comm

lemma fact_of_verdict {v : Verdict} (h : verdict host now decisionScopePath store req = .ok v) :
    (∃ reason, v = .missing reason) ∨ ∃ fact others,
      slotOf decisionScopePath store req = .ok (some (fact :: others)) ∧
      verdictOn host now store fact (fact :: others) = .ok v := by
  obtain ⟨slot, hslot, h⟩ := bind_eq_ok.mp h
  split at h
  · exact .inl ⟨_, (Except.ok.inj h).symm⟩
  · exact .inl ⟨_, (Except.ok.inj h).symm⟩
  · next fact others => exact .inr ⟨fact, others, hslot, h⟩

lemma verdictOn_sound {fact : CanonicalFact} {group : List CanonicalFact} {a : Authority}
    {ref : Except ContextError FactRef} :
    verdictOn host now store fact group = .ok (.sound a ref) ↔
      factState now store fact = .current ∧ verifyChain host fact store.resolve = [] ∧
        a = fact.authority ∧ ref = toFactRef host now fact := by
  unfold verdictOn
  cases factState now store fact with
  | current =>
    by_cases hchain : verifyChain host fact store.resolve = []
    · simp [hchain, eq_comm]
    · simp [hchain]
  | _ => simp [map_eq_ok]

lemma verdictOn_stale {fact : CanonicalFact} {group : List CanonicalFact} {ref : FactRef} :
    verdictOn host now store fact group = .ok (.stale ref) ↔
      factState now store fact = .stale ∧ toFactRef host now fact = .ok ref := by
  unfold verdictOn
  cases factState now store fact with
  | current =>
    by_cases hchain : verifyChain host fact store.resolve = []
    · simp [hchain]
    · simp [hchain]
  | _ => simp [map_eq_ok]

end Slot

/-! ### Outcomes of a store -/

section Outcome

variable (host : Host) (now decisionScopePath : String) (store : FactStore)

/-- What became of a requirement, where its resolution returned. -/
def outcome (req : FactRequirement) : Resolution :=
  (resolveRequirement host now decisionScopePath store req).toOption.getD (unknownFor req "")

/-- The verdict on a requirement, where it returned. -/
def verdictOf (req : FactRequirement) : Verdict :=
  (verdict host now decisionScopePath store req).toOption.getD (.missing "")

def Resolves (reqs : List FactRequirement) : Prop :=
  ∀ r ∈ reqs, resolveRequirement host now decisionScopePath store r =
    .ok (outcome host now decisionScopePath store r)

variable {host now decisionScopePath store} {req : FactRequirement}

lemma outcome_of_ok {x : Resolution}
    (h : resolveRequirement host now decisionScopePath store req = .ok x) :
    outcome host now decisionScopePath store req = x := by
  simp [outcome, h, Except.toOption]

lemma resolveAll_eq_ok {reqs : List FactRequirement} {resolved : List Resolved} :
    resolveAll host now store decisionScopePath reqs = .ok resolved ↔
      Resolves host now decisionScopePath store reqs ∧
        resolved = reqs.map fun r => (r, outcome host now decisionScopePath store r) := by
  unfold resolveAll
  rw [mapM_eq_ok (g := fun r => (r, outcome host now decisionScopePath store r))]
  · apply and_congr_left
    intro _
    apply forall₂_congr
    intro r _
    simp only [bind_eq_ok, pure, Except.pure, Except.ok.injEq, Prod.mk.injEq, true_and,
      exists_eq_right]
  · intro r b hb
    obtain ⟨x, hx, hb⟩ := bind_eq_ok.mp hb
    simp only [pure, Except.pure, Except.ok.injEq] at hb
    rw [outcome_of_ok hx, hb]

lemma verdict_of_resolves {reqs : List FactRequirement}
    (h : Resolves host now decisionScopePath store reqs) (hreq : req ∈ reqs) :
    verdict host now decisionScopePath store req =
        .ok (verdictOf host now decisionScopePath store req) ∧
      (verdictOf host now decisionScopePath store req).finish req =
        .ok (outcome host now decisionScopePath store req) := by
  have hres := h req hreq
  rw [resolveRequirement_eq, bind_eq_ok] at hres
  obtain ⟨v, hv, hfinish⟩ := hres
  have hof : verdictOf host now decisionScopePath store req = v := by
    simp [verdictOf, hv, Except.toOption]
  rw [hof]
  exact ⟨hv, hfinish⟩

lemma reads_of_resolves (hlawful : store.Lawful) {reqs : List FactRequirement}
    (h : Resolves host now decisionScopePath store reqs) :
    Reads reqs (verdictOf host now decisionScopePath store)
      (outcome host now decisionScopePath store) := by
  constructor
  · intro r hr
    exact (verdict_of_resolves h hr).2
  · intro r r' hfact hscope
    simp only [verdictOf, verdict_congr host now decisionScopePath store r hfact hscope]
  · intro r reason hreason
    cases hv : verdict host now decisionScopePath store r with
    | error e =>
      simp only [verdictOf, hv, Except.toOption, Option.getD_none, Verdict.missing.injEq] at hreason
      rw [← hreason]
      decide
    | ok v =>
      simp only [verdictOf, hv, Except.toOption, Option.getD_some] at hreason
      exact reason_of_verdict host now decisionScopePath store r (hv.trans (by rw [hreason]))
  · intro r hr s hs
    obtain ⟨hverdict, hfinish⟩ := verdict_of_resolves h hr
    rw [hs] at hfinish
    obtain ⟨ref, reason, rfl, hv⟩ := finish_stale.mp hfinish
    have hfact : ∃ fact, fact ∈ store.currentFacts r.fact ∧
        toFactRef host now fact = .ok ref := by
      obtain ⟨_, hmissing⟩ | ⟨fact, others, hslot, hon⟩ := fact_of_verdict hverdict
      · rw [hmissing] at hv
        simp at hv
      · refine ⟨fact, currentFact_of_slotOf hslot (by simp), ?_⟩
        rcases hv with ⟨-, hv⟩ | ⟨-, a, hv, -⟩
        · rw [hv] at hon
          exact (verdictOn_stale.mp hon).2
        · rw [hv] at hon
          exact (verdictOn_sound.mp hon).2.2.2.symm
    obtain ⟨fact, hmem, href⟩ := hfact
    obtain ⟨age, -, rfl⟩ := toFactRef_eq_ok.mp href
    exact hlawful r.fact fact hmem

end Outcome

/-! ### Contexts -/

/-- The invariants and the buckets, what is missing, stale and conflicted are the same. -/
structure SameCanonical (a b : ControlContext) : Prop where
  invariants : a.invariants = b.invariants
  workload : a.workload = b.workload
  workflow : a.workflow = b.workflow
  job : a.job = b.job
  resource : a.resource = b.resource
  unknowns : a.unknowns = b.unknowns
  conflicts : a.conflicts = b.conflicts
  stale : a.stale = b.stale

section Compile

variable {host : Host} {now : String} {store : FactStore} {request : ContextRequest}
  {contract : ContractSpec} {challenge : Option ChallengeProfile} {ctx : ControlContext}

/-- The context of a contract whose requirements resolve. -/
def compiled (host : Host) (now : String) (store : FactStore) (request : ContextRequest)
    (contract : ContractSpec) (effective : List FactRequirement) (advisory : List FactRef) :
    ControlContext :=
  let resolved (reqs : List FactRequirement) : List Resolved :=
    reqs.map fun r => (r, outcome host now request.scopePath store r)
  snapshot host now request contract (resolved contract.invariants) (resolved effective) advisory

lemma compileContext_eq_ok : compileContext host now store request contract challenge = .ok ctx ↔
    request.scopeType = contract.decisionScope ∧ ∃ effective advisory,
      composeRequirements host contract challenge = .ok effective ∧
      Resolves host now request.scopePath store (contract.invariants ++ effective) ∧
      effective.mapM (advisoryFor host now store request.scopePath) = .ok advisory ∧
      ctx = compiled host now store request contract effective advisory.flatten := by
  unfold compileContext
  by_cases hscope : request.scopeType = contract.decisionScope
  · simp only [hscope, ne_eq, not_true_eq_false, if_false, pure, Except.pure, true_and]
    constructor
    · intro h
      obtain ⟨-, -, h⟩ := bind_eq_ok.mp h
      obtain ⟨effective, heffective, h⟩ := bind_eq_ok.mp h
      obtain ⟨invariants, hinvariants, h⟩ := bind_eq_ok.mp h
      obtain ⟨required, hrequired, h⟩ := bind_eq_ok.mp h
      obtain ⟨advisory, hadvisory, h⟩ := bind_eq_ok.mp h
      obtain ⟨hinv, rfl⟩ := resolveAll_eq_ok.mp hinvariants
      obtain ⟨hreq, rfl⟩ := resolveAll_eq_ok.mp hrequired
      exact ⟨effective, advisory, heffective, List.forall_mem_append.mpr ⟨hinv, hreq⟩, hadvisory,
        (Except.ok.inj h).symm⟩
    · rintro ⟨effective, advisory, heffective, hresolves, hadvisory, rfl⟩
      obtain ⟨hinv, hreq⟩ := List.forall_mem_append.mp hresolves
      have hinvariants := resolveAll_eq_ok.mpr ⟨hinv, rfl⟩
      have hrequired := resolveAll_eq_ok.mpr ⟨hreq, rfl⟩
      simp only [bind, Except.bind, heffective, hinvariants, hrequired, hadvisory]
      rfl
  · simp [hscope, throw, throwThe, MonadExceptOf.throw, bind, Except.bind]

lemma bucket_mem (r : Resolved) : r.bucket ∈ ["workload", "workflow", "job", "resource"] := by
  unfold Resolved.bucket
  simp only
  split
  · assumption
  · simp

lemma sameCanonical_iff {store' : FactStore} (hlawful : store.Lawful) (hlawful' : store'.Lawful)
    {effective : List FactRequirement} {advisory advisory' : List FactRef}
    (h : Resolves host now request.scopePath store (contract.invariants ++ effective))
    (h' : Resolves host now request.scopePath store' (contract.invariants ++ effective)) :
    SameCanonical (compiled host now store request contract effective advisory)
        (compiled host now store' request contract effective advisory') ↔
      ∀ r ∈ contract.invariants ++ effective,
        outcome host now request.scopePath store r = outcome host now request.scopePath store' r := by
  constructor
  · intro hsame
    have hlist : ∀ {α : Type} (kind : Resolved → Option α) (reqs : List FactRequirement)
        (store : FactStore), (reqs.map fun r =>
          (r, outcome host now request.scopePath store r)).filterMap kind =
        outcomes kind reqs (outcome host now request.scopePath store) := by
      intro α kind reqs store
      rw [List.filterMap_map]
      rfl
    have hbucket : ∀ (name : String) (store : FactStore),
        ((effective.map fun r => (r, outcome host now request.scopePath store r)).filter
          fun r => Resolved.bucket r = name).filterMap Resolved.ref? =
        outcomes Resolved.ref?
          (effective.filter fun r => Resolved.bucket (r, unknownFor r "") = name)
          (outcome host now request.scopePath store) := by
      intro name store
      rw [List.filter_map, hlist]
      rfl
    refine Reads.eq (reads_of_resolves hlawful h) (reads_of_resolves hlawful' h') ?_ ?_ ?_ ?_
    · simpa only [compiled, snapshot, ← List.map_append, hlist] using hsame.unknowns
    · simpa only [compiled, snapshot, ← List.map_append, hlist] using hsame.conflicts
    · simpa only [compiled, snapshot, ← List.map_append, hlist] using hsame.stale
    · intro r hr
      rcases List.mem_append.mp hr with hr | hr
      · refine ⟨contract.invariants, hr, List.subset_append_left _ _, ?_⟩
        simpa only [compiled, snapshot, hlist] using hsame.invariants
      · refine ⟨effective.filter fun r' => Resolved.bucket (r', unknownFor r' "") =
          Resolved.bucket (r, unknownFor r ""), by simp [hr], ?_, ?_⟩
        · intro r' hr'
          exact List.mem_append_right _ (List.mem_of_mem_filter hr')
        · have hmem := bucket_mem (r, unknownFor r "")
          simp only [List.mem_cons, List.not_mem_nil, or_false] at hmem
          rcases hmem with hmem | hmem | hmem | hmem
          · simpa only [compiled, snapshot, hbucket, hmem] using hsame.workload
          · simpa only [compiled, snapshot, hbucket, hmem] using hsame.workflow
          · simpa only [compiled, snapshot, hbucket, hmem] using hsame.job
          · simpa only [compiled, snapshot, hbucket, hmem] using hsame.resource
  · intro hsame
    obtain ⟨hinv, hreq⟩ := List.forall_mem_append.mp hsame
    have hinvariants : (contract.invariants.map fun r =>
        (r, outcome host now request.scopePath store r)) = contract.invariants.map fun r =>
        (r, outcome host now request.scopePath store' r) :=
      List.map_congr_left fun r hr => by rw [hinv r hr]
    have hrequired : (effective.map fun r =>
        (r, outcome host now request.scopePath store r)) = effective.map fun r =>
        (r, outcome host now request.scopePath store' r) :=
      List.map_congr_left fun r hr => by rw [hreq r hr]
    constructor <;> simp only [compiled, snapshot, hinvariants, hrequired]

end Compile

end AgenticDynamics.Context
