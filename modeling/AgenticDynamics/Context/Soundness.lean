import AgenticDynamics.Context.Compiled

/-!
# What a compiled context cites

Every citable reference is that of a fact which passed the gates of the compiler. The gates on the
chain, the authority, the scope and the version hold what they promise; those on the stamps do so
for stamps that can be read and whose text follows the time.
-/

namespace AgenticDynamics.Context

open Python

section Gates

variable (host : Host) (now decisionScopePath : String) (store : FactStore)
  (req : FactRequirement) (fact : CanonicalFact)

/-- The fact fills the slot of the requirement and passes every gate of the compiler. -/
structure Admitted : Prop where
  slot : ∃ others, slotOf decisionScopePath store req = .ok (some (fact :: others))
  current : factState now store fact = .current
  chain : verifyChain host fact store.resolve = []
  floor : ¬ fact.authority < req.floor
  young : ∃ ref, toFactRef host now fact = .ok ref ∧ ¬ tooOld req ref

/-- Both stamps can be read, and the first is that of an earlier time. -/
def Earlier (a b : String) : Prop :=
  ∃ x y, host.fromisoformat a = some x ∧ host.fromisoformat b = some y ∧ x.aware = y.aware ∧
    x.micros < y.micros

/-- No fact is visible, and the decision's own scope falls back on its descendants. -/
def FallsBack (target : String) : Prop := visibleFacts store req target = [] ∧ req.scope = "self"

structure SoundFact : Prop where
  chain : verifyChain host fact store.resolve = []
  authority : req.floor ≤ fact.authority
  visible : ∃ target, resolveRequirementScope req.scope decisionScopePath = .ok (some target) ∧
    (scopeVisible target fact.scopePath (predicateSpec? req.fact) ∨
      FallsBack store req target ∧ fact ∈ descendants decisionScopePath store req ∧
        ∀ other ∈ descendants decisionScopePath store req,
          ¬ Earlier host fact.observedAt other.observedAt)
  version : ¬ rivalled store fact ∧ ¬ ownRow store fact "superseded" ∧
    ¬ ownRow store fact "tombstoned"
  unexpired : ∀ text, fact.expiresAt = some text → ¬ Earlier host text now
  age : ∀ m, req.maxAgeSeconds = some m → ∃ obs cur micros,
    host.fromisoformat fact.observedAt = some obs ∧ host.fromisoformat now = some cur ∧
      cur.sub obs = some micros ∧ micros ≤ m * 1000000

/-- The stamps of the fact can be read where they are needed, its age is not in the second after
the limit, and where stamps are compared as text the text follows the time. -/
structure StampsHold : Prop where
  readable : req.maxAgeSeconds.isSome →
    (host.fromisoformat fact.observedAt).isSome ∧ (host.fromisoformat now).isSome
  whole : ∀ m obs cur micros, req.maxAgeSeconds = some m →
    host.fromisoformat fact.observedAt = some obs → host.fromisoformat now = some cur →
      cur.sub obs = some micros → ¬ (m * 1000000 < micros ∧ micros < (m + 1) * 1000000)
  expiry : ∀ text, fact.expiresAt = some text → Earlier host text now → text ≠ "" ∧ text < now
  latest : ∀ target, resolveRequirementScope req.scope decisionScopePath = .ok (some target) →
    FallsBack store req target → ∀ other ∈ descendants decisionScopePath store req,
      Earlier host fact.observedAt other.observedAt → fact.observedAt < other.observedAt

end Gates

section Sound

variable {host : Host} {now decisionScopePath : String} {store : FactStore}
  {req : FactRequirement} {fact : CanonicalFact}

lemma resolveRequirement_factRef {ref : FactRef} :
    resolveRequirement host now decisionScopePath store req = .ok (.factRef ref) ↔
      ∃ fact, Admitted host now decisionScopePath store req fact ∧
        toFactRef host now fact = .ok ref := by
  rw [resolveRequirement_eq, bind_eq_ok]
  constructor
  · rintro ⟨v, hv, hfinish⟩
    obtain ⟨a, rfl, hfloor, hyoung⟩ := finish_ref.mp hfinish
    obtain ⟨_, hmissing⟩ | ⟨fact, others, hslot, hon⟩ := fact_of_verdict hv
    · cases hmissing
    · obtain ⟨hcurrent, hchain, rfl, href⟩ := verdictOn_sound.mp hon
      exact ⟨fact, ⟨⟨others, hslot⟩, hcurrent, hchain, hfloor, ref, href.symm, hyoung⟩, href.symm⟩
  · rintro ⟨fact, ⟨⟨others, hslot⟩, hcurrent, hchain, hfloor, ref', href', hyoung⟩, href⟩
    rw [href, Except.ok.injEq] at href'
    subst href'
    refine ⟨.sound fact.authority (toFactRef host now fact), ?_, ?_⟩
    · simp only [verdict, hslot, bind, Except.bind]
      exact verdictOn_sound.mpr ⟨hcurrent, hchain, rfl, rfl⟩
    · rw [href]
      exact finish_ref.mpr ⟨fact.authority, rfl, hfloor, hyoung⟩

lemma micros_lt_of_young {ref : FactRef} {m : ℤ} {obs cur : DateTime} {micros : ℤ}
    (href : toFactRef host now fact = .ok ref) (hyoung : ¬ tooOld req ref)
    (hm : req.maxAgeSeconds = some m) (hobs : host.fromisoformat fact.observedAt = some obs)
    (hcur : host.fromisoformat now = some cur) (hsub : cur.sub obs = some micros) :
    micros < (m + 1) * 1000000 := by
  obtain ⟨age, hage, rfl⟩ := toFactRef_eq_ok.mp href
  simp only [ageSeconds, hobs, hcur, hsub, Except.ok.injEq] at hage
  simp only [tooOld, hm, Option.any_some, decide_eq_true_eq, not_lt] at hyoung
  rw [← hage] at hyoung
  have hlimit : 0 ≤ m := le_trans (le_max_left _ _) hyoung
  have hdiv : micros.tdiv 1000000 ≤ m := le_trans (le_max_right _ _) hyoung
  by_cases hneg : micros < 0
  · nlinarith
  · rw [Int.tdiv_eq_ediv_of_nonneg (not_lt.mp hneg)] at hdiv
    omega

lemma Admitted.sound_iff (h : Admitted host now decisionScopePath store req fact) :
    SoundFact host now decisionScopePath store req fact ↔
      StampsHold host now decisionScopePath store req fact := by
  obtain ⟨others, hslot⟩ := h.slot
  obtain ⟨target, htarget, hcandidates⟩ := candidate_of_slotOf hslot
  have hcandidate := hcandidates fact (by simp)
  obtain ⟨ref, href, hyoung⟩ := h.young
  obtain ⟨htomb, -, hsuper, -, hrival, hexpired, -⟩ :=
    (factState_eq_current now store fact).mp h.current
  have hvisible : ¬ FallsBack store req target →
      scopeVisible target fact.scopePath (predicateSpec? req.fact) := by
    intro hcase
    rw [candidates, if_neg (by exact hcase)] at hcandidate
    exact (List.mem_filter.mp hcandidate).2
  have hfallback : FallsBack store req target →
      fact ∈ descendants decisionScopePath store req ∧
        ∀ other ∈ descendants decisionScopePath store req, other.observedAt ≤ fact.observedAt := by
    intro hcase
    rw [candidates, if_pos (by exact hcase), Option.mem_toList] at hcandidate
    exact ⟨List.argmax_mem hcandidate, fun other hother => List.le_of_mem_argmax hother hcandidate⟩
  constructor
  · intro hsound
    constructor
    · intro hlimit
      obtain ⟨m, hm⟩ := Option.isSome_iff_exists.mp hlimit
      obtain ⟨obs, cur, micros, hobs, hcur, -⟩ := hsound.age m hm
      exact ⟨by rw [hobs]; rfl, by rw [hcur]; rfl⟩
    · intro m obs cur micros hm hobs hcur hsub hlate
      obtain ⟨obs', cur', micros', hobs', hcur', hsub', hle⟩ := hsound.age m hm
      rw [hobs, Option.some.injEq] at hobs'
      rw [hcur, Option.some.injEq] at hcur'
      subst hobs' hcur'
      rw [hsub, Option.some.injEq] at hsub'
      omega
    · intro text htext hearlier
      exact absurd hearlier (hsound.unexpired text htext)
    · intro target' htarget' hcase other hother hearlier
      rw [htarget] at htarget'
      cases htarget'
      obtain ⟨target', htarget', hvisible' | ⟨-, -, hlast⟩⟩ := hsound.visible
      · -- nothing is visible, so neither is the fact
        rw [htarget] at htarget'
        cases htarget'
        have hmem : fact ∈ visibleFacts store req target :=
          List.mem_filter.mpr ⟨currentFact_of_mem_candidates hcandidate, hvisible'⟩
        rw [hcase.1] at hmem
        cases hmem
      · exact absurd hearlier (hlast other hother)
  · intro hstamps
    refine ⟨h.chain, not_lt.mp h.floor, ⟨target, htarget, ?_⟩, ⟨hrival, hsuper, htomb⟩, ?_, ?_⟩
    · by_cases hcase : FallsBack store req target
      · obtain ⟨hbelow, hlast⟩ := hfallback hcase
        refine .inr ⟨hcase, hbelow, fun other hother hearlier => ?_⟩
        exact absurd (hstamps.latest target htarget hcase other hother hearlier)
          (not_lt.mpr (hlast other hother))
      · exact .inl (hvisible hcase)
    · intro text htext hearlier
      obtain ⟨hne, hlt⟩ := hstamps.expiry text htext hearlier
      apply hexpired
      simp [expired, htext, hne, hlt]
    · intro m hm
      obtain ⟨hobs, hcur⟩ := hstamps.readable (by rw [hm]; rfl)
      obtain ⟨obs, hobs⟩ := Option.isSome_iff_exists.mp hobs
      obtain ⟨cur, hcur⟩ := Option.isSome_iff_exists.mp hcur
      obtain ⟨age, hage, -⟩ := toFactRef_eq_ok.mp href
      cases hsub : cur.sub obs with
      | none => simp [ageSeconds, hobs, hcur, hsub] at hage
      | some micros =>
        have hlt := micros_lt_of_young href hyoung hm hobs hcur hsub
        have hwhole := hstamps.whole m obs cur micros hm hobs hcur hsub
        exact ⟨obs, cur, micros, hobs, hcur, hsub, by omega⟩

end Sound

/-! ### Contexts -/

section Contexts

variable {host : Host} {now : String} {store : FactStore} {request : ContextRequest}
  {contract : ContractSpec} {challenge : Option ChallengeProfile}
  {effective : List FactRequirement} {ctx : ControlContext}

lemma mem_citable {advisory : List FactRef} {ref : FactRef} :
    ref ∈ (compiled host now store request contract effective advisory).citable ↔
      ∃ r ∈ contract.invariants ++ effective,
        outcome host now request.scopePath store r = .factRef ref := by
  have hinv : ref ∈ (contract.invariants.map fun r =>
      (r, outcome host now request.scopePath store r)).filterMap Resolved.ref? ↔
      ∃ r ∈ contract.invariants, outcome host now request.scopePath store r = .factRef ref := by
    simp
  have hbucket : ∀ name, ref ∈ ((effective.map fun r =>
      (r, outcome host now request.scopePath store r)).filter
        fun r => Resolved.bucket r = name).filterMap Resolved.ref? ↔
      ∃ r ∈ effective, Resolved.bucket (r, outcome host now request.scopePath store r) = name ∧
        outcome host now request.scopePath store r = .factRef ref := by
    intro name
    simp only [List.mem_filterMap, List.mem_filter, List.mem_map, decide_eq_true_eq]
    constructor
    · rintro ⟨_, ⟨⟨r, hr, rfl⟩, hname⟩, href⟩
      exact ⟨r, hr, hname, ref?_eq_some.mp href⟩
    · rintro ⟨r, hr, hname, href⟩
      exact ⟨_, ⟨⟨r, hr, rfl⟩, hname⟩, ref?_eq_some.mpr href⟩
  simp only [ControlContext.citable, compiled, snapshot, List.mem_append, hinv, hbucket]
  constructor
  · rintro ((((⟨r, hr, href⟩ | ⟨r, hr, -, href⟩) | ⟨r, hr, -, href⟩) | ⟨r, hr, -, href⟩) |
      ⟨r, hr, -, href⟩)
    · exact ⟨r, .inl hr, href⟩
    · exact ⟨r, .inr hr, href⟩
    · exact ⟨r, .inr hr, href⟩
    · exact ⟨r, .inr hr, href⟩
    · exact ⟨r, .inr hr, href⟩
  · rintro ⟨r, hr | hr, href⟩
    · exact .inl (.inl (.inl (.inl ⟨r, hr, href⟩)))
    · have hmem := bucket_mem (r, outcome host now request.scopePath store r)
      simp only [List.mem_cons, List.not_mem_nil, or_false] at hmem
      rcases hmem with hmem | hmem | hmem | hmem
      · exact .inl (.inl (.inl (.inr ⟨r, hr, hmem, href⟩)))
      · exact .inl (.inl (.inr ⟨r, hr, hmem, href⟩))
      · exact .inl (.inr ⟨r, hr, hmem, href⟩)
      · exact .inr ⟨r, hr, hmem, href⟩

/-- A compiled context cites the admitted facts, and these are sound exactly when their stamps
hold. -/
theorem compileContext_sound
    (heffective : composeRequirements host contract challenge = .ok effective)
    (hctx : compileContext host now store request contract challenge = .ok ctx) :
    (∀ ref, ref ∈ ctx.citable ↔ ∃ r ∈ contract.invariants ++ effective, ∃ fact,
      Admitted host now request.scopePath store r fact ∧ toFactRef host now fact = .ok ref) ∧
    ((∀ r ∈ contract.invariants ++ effective, ∀ fact,
        Admitted host now request.scopePath store r fact →
          SoundFact host now request.scopePath store r fact) ↔
      ∀ r ∈ contract.invariants ++ effective, ∀ fact,
        Admitted host now request.scopePath store r fact →
          StampsHold host now request.scopePath store r fact) := by
  obtain ⟨-, effective', advisory, heffective', hresolves, -, rfl⟩ := compileContext_eq_ok.mp hctx
  rw [heffective, Except.ok.injEq] at heffective'
  subst heffective'
  constructor
  · intro ref
    rw [mem_citable]
    apply exists_congr
    intro r
    apply and_congr_right
    intro hr
    rw [← resolveRequirement_factRef, hresolves r hr, Except.ok.injEq]
  · constructor
    · intro hsound r hr fact hadmitted
      exact hadmitted.sound_iff.mp (hsound r hr fact hadmitted)
    · intro hstamps r hr fact hadmitted
      exact hadmitted.sound_iff.mpr (hstamps r hr fact hadmitted)

end Contexts

theorem compileContext_sound_route : ∃ ctx,
    compileContext routeHost oneOClock (inMemoryFactStore routeFacts) routeRequest routeNextJob
      none = .ok ctx ∧
    ∀ ref ∈ ctx.citable, ∃ r ∈ routeNextJob.invariants ++ routeNextJob.requiresFacts, ∃ fact,
      toFactRef routeHost oneOClock fact = .ok ref ∧
      SoundFact routeHost oneOClock routeRequest.scopePath (inMemoryFactStore routeFacts) r fact := by
  have hok : (compileContext routeHost oneOClock (inMemoryFactStore routeFacts) routeRequest
      routeNextJob none).toOption.map ControlContext.admissible = some true := by decide +kernel
  obtain ⟨ctx, hctx, -⟩ := ok_of_toOption_map hok
  have heffective : composeRequirements routeHost routeNextJob none =
      .ok routeNextJob.requiresFacts := by decide +kernel
  obtain ⟨hcited, hsound⟩ := compileContext_sound heffective hctx
  -- every fact is a minute old, none expires and none is below the job
  have hdated : ∀ r ∈ routeNextJob.invariants ++ routeNextJob.requiresFacts,
      (∀ m ∈ r.maxAgeSeconds, 60 ≤ m) ∧
      descendants routeRequest.scopePath (inMemoryFactStore routeFacts) r = [] ∧
      ∀ f ∈ (inMemoryFactStore routeFacts).currentFacts r.fact,
        routeHost.fromisoformat f.observedAt = some ⟨63902825940000000, true⟩ ∧
        f.expiresAt = none := by
    decide +kernel
  have hnow : routeHost.fromisoformat oneOClock = some ⟨63902826000000000, true⟩ := by
    decide +kernel
  have hall := hsound.mpr fun r hr fact hadmitted => by
    obtain ⟨others, hslot⟩ := hadmitted.slot
    obtain ⟨hage, hnone, hfacts⟩ := hdated r hr
    obtain ⟨hobserved, hexpires⟩ := hfacts fact (currentFact_of_slotOf hslot (by simp))
    constructor
    · intro _
      rw [hobserved, hnow]
      exact ⟨rfl, rfl⟩
    · intro m obs cur micros hm hobs hcur hsub
      rw [hobserved, Option.some.injEq] at hobs
      rw [hnow, Option.some.injEq] at hcur
      subst hobs hcur
      have hmicros : micros = 60000000 := by simpa [DateTime.sub, eq_comm] using hsub
      have hlimit := hage m hm
      omega
    · simp [hexpires]
    · simp [hnone]
  refine ⟨ctx, hctx, fun ref href => ?_⟩
  obtain ⟨r, hr, fact, hadmitted, hof⟩ := (hcited ref).mp href
  exact ⟨r, hr, fact, hof, hall r hr fact hadmitted⟩

def undatedCost : CanonicalFact := { costFact with observedAt := "" }

/-- Where the cost may be ten minutes old, one without a date is cited as if it were new. -/
theorem compileContext_cites_undated : ∃ ctx ref,
    compileContext routeHost oneOClock (inMemoryFactStore [policyFact "f-allowed" "allowed_models"
        "anthropic/claude-opus-5", policyFact "f-spend" "max_spend_usd" "25.0", undatedCost,
        remainingFact]) routeRequest routeNextJob none = .ok ctx ∧
      ref ∈ ctx.citable ∧ ref.predicate = "job_accumulated_cost_usd" ∧ ref.ageSeconds = 0 ∧
      (∃ r ∈ routeNextJob.requiresFacts, r.fact = ref.predicate ∧ r.maxAgeSeconds = some 600) ∧
      routeHost.fromisoformat ref.observedAt = none := by
  have hok : (compileContext routeHost oneOClock (inMemoryFactStore [policyFact "f-allowed"
        "allowed_models" "anthropic/claude-opus-5", policyFact "f-spend" "max_spend_usd" "25.0",
        undatedCost, remainingFact]) routeRequest routeNextJob none).toOption.map
      (fun ctx => (ctx.citable.find? fun ref => ref.predicate = "job_accumulated_cost_usd").map
        fun ref => (ref.ageSeconds, ref.observedAt)) = some (some (0, "")) := by decide +kernel
  obtain ⟨ctx, hctx, hcited⟩ := ok_of_toOption_map hok
  obtain ⟨ref, hfind, href⟩ := Option.map_eq_some_iff.mp hcited
  obtain ⟨hage, hobserved⟩ := Prod.mk.inj href
  have hpredicate : ref.predicate = "job_accumulated_cost_usd" := by
    simpa using List.find?_some hfind
  refine ⟨ctx, ref, hctx, List.mem_of_find?_eq_some hfind, hpredicate, hage, ?_, ?_⟩
  · rw [hpredicate]
    decide
  · rw [hobserved]
    decide

end AgenticDynamics.Context
