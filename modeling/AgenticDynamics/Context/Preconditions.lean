import AgenticDynamics.Context.Validator

/-!
# What a precondition binds to

A precondition names a fact, a scope and an age. The check looks up the last fresh fact of the
predicate and evaluates the operator on its value.
-/

namespace AgenticDynamics.Context

open Python

namespace Precondition

variable (host : Host) (fresh : ControlContext) (pre : Precondition)

/-- The fact is at the precondition's scope: visible from there, or, for the scope itself, below
it, as the compiler has it. -/
def AtScope (ref : FactRef) : Prop :=
  ∃ target, resolveRequirementScope pre.scope fresh.scopePath = .ok (some target) ∧
    (scopeVisible target ref.scopePath (predicateSpec? pre.fact) ∨
      pre.scope = "self" ∧ startsWith ref.scopePath (fresh.scopePath ++ "/"))

/-- A fact of the predicate, at the scope and young enough. -/
def Names (ref : FactRef) : Prop :=
  ref ∈ fresh.citable ∧ ref.predicate = pre.fact ∧ pre.AtScope fresh ref ∧
    ref.ageSeconds ≤ pre.maxAgeSeconds

def TrueOf (ref : FactRef) : Prop := opHolds host ref.value pre.op pre.value = .ok true

/-- The fact that is looked up is one that the operator is true of. -/
def Passes : Prop := ∃ ref, findLast fresh.citable pre.fact = some ref ∧ pre.TrueOf host ref

/-- There is no fresh fact, or the operator is false of the one that is looked up. -/
def Fails : Prop :=
  findLast fresh.citable pre.fact = none ∨
    ∃ ref, findLast fresh.citable pre.fact = some ref ∧
      opHolds host ref.value pre.op pre.value = .ok false

/-- It passes on a fact that it does not name, and is true of none that it names. -/
def Strays : Prop := pre.Passes host fresh ∧ ∀ ref, pre.Names fresh ref → ¬ pre.TrueOf host ref

/-- The operator looks for a text in what holds no texts, or asks for the order of a text and of
something else, not both of which are numbers. -/
def Incomparable : Prop :=
  ∃ ref, findLast fresh.citable pre.fact = some ref ∧
    (pre.op = "in" ∧ pre.value.typeName ∉ ["str", "list", "dict"] ∨
      pre.op ∈ ["lt", "lte", "gt", "gte"] ∧ pre.value.typeName ≠ "str" ∧
        opNumbers host ref.value pre.value = .ok none)

variable {host fresh pre}

lemma passes_iff : pre.Passes host fresh ↔ c7Precondition host fresh pre = .ok none := by
  simp only [Passes, TrueOf, c7Precondition]
  cases findLast fresh.citable pre.fact with
  | none => simp
  | some ref =>
    rcases hop : opHolds host ref.value pre.op pre.value with e | _ | _ <;>
      simp [hop, bind, Except.bind, pure, Except.pure]

lemma fails_iff :
    pre.Fails host fresh ↔ ∃ reason, c7Precondition host fresh pre = .ok (some reason) := by
  simp only [Fails, c7Precondition]
  cases findLast fresh.citable pre.fact with
  | none => simp
  | some ref =>
    rcases hop : opHolds host ref.value pre.op pre.value with e | _ | _ <;>
      simp [hop, bind, Except.bind, pure, Except.pure]

lemma Incomparable.raises (h : pre.Incomparable host fresh) :
    c7Precondition host fresh pre = .error "TypeError" := by
  obtain ⟨ref, hfound, htypes⟩ := h
  have hraises : opHolds host ref.value pre.op pre.value = .error "TypeError" := by
    rcases htypes with ⟨hop, htype⟩ | ⟨hop, htype, hnumbers⟩
    · rw [hop]
      cases hvalue : pre.value with
      | str s => simp [hvalue, Json.typeName] at htype
      | arr items => simp [hvalue, Json.typeName] at htype
      | obj fields => simp [hvalue, Json.typeName] at htype
      | _ => rfl
    · cases hvalue : pre.value with
      | str s => simp [hvalue, Json.typeName] at htype
      | _ =>
        rw [hvalue] at hnumbers
        simp only [List.mem_cons, List.not_mem_nil, or_false] at hop
        rcases hop with hop | hop | hop | hop <;>
          · rw [hop]
            unfold opHolds
            simp [hnumbers, bind, Except.bind]
            rfl
  rw [c7Precondition, hfound]
  simp [hraises, bind, Except.bind]

end Precondition

lemma firstReason_eq_some {reasons : List (Except String (Option String))} :
    (∃ reason, firstReason reasons = .ok (some reason)) ↔
      ∃ before check after, reasons = before ++ check :: after ∧
        (∀ c ∈ before, c = .ok none) ∧ ∃ reason, check = .ok (some reason) := by
  induction reasons with
  | nil => simp [firstReason]
  | cons check rest ih =>
    constructor
    · rintro ⟨reason, h⟩
      rcases check with e | _ | text
      · simp [firstReason, bind, Except.bind] at h
      · obtain ⟨before, c, after, rfl, hbefore, hc⟩ := ih.mp ⟨reason, h⟩
        exact ⟨.ok none :: before, c, after, rfl, List.forall_mem_cons.mpr ⟨rfl, hbefore⟩, hc⟩
      · exact ⟨[], _, rest, rfl, by simp, text, rfl⟩
    · rintro ⟨before, c, after, hsplit, hbefore, reason, rfl⟩
      cases before with
      | nil =>
        cases hsplit
        exact ⟨reason, rfl⟩
      | cons first before =>
        cases hsplit
        rw [hbefore check List.mem_cons_self]
        exact ih.mpr ⟨before, _, after, rfl, fun c hc => hbefore c (List.mem_cons_of_mem _ hc),
          reason, rfl⟩

section Bindings

variable (host : Host) (decision : ControlDecision) (ctx fresh : ControlContext)
variable (contract : ContractSpec) (now : String) (store : Option FactStore)

/-- An accepted decision has each precondition true of a fact that it names, and operands without
an order have the decision refused. -/
structure PreconditionsBind : Prop where
  accepted : ∀ r, validateDecision host decision ctx fresh contract now store = .ok r →
    r.admitted → ∀ pre ∈ decision.preconditions, ∃ ref, pre.Names fresh ref ∧ pre.TrueOf host ref
  refused : ∀ pre ∈ decision.preconditions, pre.Incomparable host fresh →
    ∃ r, validateDecision host decision ctx fresh contract now store = .ok r ∧ ¬ r.admitted

/-- Checks C1 to C6 have nothing against the decision. -/
def EarlyChecksPass : Prop :=
  c1SnapshotBinding host decision ctx = none ∧ c2SnapshotAdmissibility ctx = none ∧
    c3ActionVocabulary host decision contract = none ∧ c4TargetScope host decision ctx = none ∧
    c5FactsCitation host decision ctx = none ∧ c6DerivationChains host decision ctx store = none

/-- Checks C8 to C10 have nothing against the decision. -/
def LateChecksPass : Prop :=
  c8PolicyInvariants host decision ctx = none ∧ c9ActuationAuthorization host decision = none ∧
    c10Recordability decision = none

/-- No precondition strays where nothing else refuses, and before operands without an order
something refuses: an earlier check, the age of the snapshot, or a precondition that fails behind
others that pass. -/
structure BindingConditions : Prop where
  strays : ∀ pre ∈ decision.preconditions, pre.Strays host fresh →
    ¬ EarlyChecksPass host decision ctx contract store ∨
      c7Freshness host ctx contract now ≠ .ok none ∨
      (∃ other ∈ decision.preconditions, ¬ other.Passes host fresh) ∨
      ¬ LateChecksPass host decision ctx
  incomparable : ∀ pre ∈ decision.preconditions, pre.Incomparable host fresh →
    EarlyChecksPass host decision ctx contract store →
      (∃ reason, c7Freshness host ctx contract now = .ok (some reason)) ∨
      c7Freshness host ctx contract now = .ok none ∧
        ∃ before first after, decision.preconditions = before ++ first :: after ∧
          (∀ p ∈ before, p.Passes host fresh) ∧ first.Fails host fresh

variable {host decision ctx fresh contract now store}

lemma admitted_iff_pass :
    (∃ r, validateDecision host decision ctx fresh contract now store = .ok r ∧ r.admitted) ↔
      EarlyChecksPass host decision ctx contract store ∧
        c7Freshness host ctx contract now = .ok none ∧
        (∀ pre ∈ decision.preconditions, pre.Passes host fresh) ∧
        LateChecksPass host decision ctx := by
  rw [validateDecision_admitted, c7FreshnessAndPreconditions, firstReason_eq_none]
  simp only [List.forall_mem_cons, List.forall_mem_map, Precondition.passes_iff, EarlyChecksPass,
    LateChecksPass, and_assoc]

lemma refused_iff (hc7 : c7FreshnessAndPreconditions host decision ctx fresh contract now ≠ .ok none) :
    (∃ r, validateDecision host decision ctx fresh contract now store = .ok r ∧ ¬ r.admitted) ↔
      (EarlyChecksPass host decision ctx contract store →
        ∃ reason, c7FreshnessAndPreconditions host decision ctx fresh contract now =
          .ok (some reason)) := by
  simp only [validateDecision, checks, firstRefusal, EarlyChecksPass, bind, Except.bind]
  cases c1SnapshotBinding host decision ctx
  case some => simp [pure, Except.pure]
  cases c2SnapshotAdmissibility ctx
  case some => simp [pure, Except.pure]
  cases c3ActionVocabulary host decision contract
  case some => simp [pure, Except.pure]
  cases c4TargetScope host decision ctx
  case some => simp [pure, Except.pure]
  cases c5FactsCitation host decision ctx
  case some => simp [pure, Except.pure]
  cases c6DerivationChains host decision ctx store
  case some => simp [pure, Except.pure]
  rcases hseven : c7FreshnessAndPreconditions host decision ctx fresh contract now with e | _ | text
  · simp
  · exact absurd hseven hc7
  · simp [pure, Except.pure]

lemma c7_refuses_iff :
    (∃ reason, c7FreshnessAndPreconditions host decision ctx fresh contract now =
        .ok (some reason)) ↔
      (∃ reason, c7Freshness host ctx contract now = .ok (some reason)) ∨
      c7Freshness host ctx contract now = .ok none ∧
        ∃ before first after, decision.preconditions = before ++ first :: after ∧
          (∀ p ∈ before, p.Passes host fresh) ∧ first.Fails host fresh := by
  rw [c7FreshnessAndPreconditions]
  rcases c7Freshness host ctx contract now with e | _ | text
  · simp [firstReason, bind, Except.bind]
  · have hrest : firstReason (.ok none :: decision.preconditions.map (c7Precondition host fresh)) =
        firstReason (decision.preconditions.map (c7Precondition host fresh)) := rfl
    rw [hrest, firstReason_eq_some]
    simp only [Except.ok.injEq, reduceCtorEq, exists_false, false_or, true_and]
    constructor
    · rintro ⟨before, check, after, hsplit, hbefore, hcheck⟩
      obtain ⟨pres, rest, hpres, rfl, hrest⟩ := List.map_eq_append_iff.mp hsplit
      obtain ⟨first, later, rfl, rfl, rfl⟩ := List.map_eq_cons_iff.mp hrest
      exact ⟨pres, first, later, hpres, fun p hp =>
        Precondition.passes_iff.mpr (hbefore _ (List.mem_map_of_mem hp)),
        Precondition.fails_iff.mpr hcheck⟩
    · rintro ⟨before, first, after, hsplit, hbefore, hfails⟩
      refine ⟨before.map (c7Precondition host fresh), _, after.map (c7Precondition host fresh),
        by rw [hsplit, List.map_append, List.map_cons], ?_, Precondition.fails_iff.mp hfails⟩
      exact List.forall_mem_map.mpr fun p hp => Precondition.passes_iff.mp (hbefore p hp)
  · simp [firstReason, bind, Except.bind, pure, Except.pure]

/-- The validator holds a decision to what its preconditions name exactly under the conditions. -/
theorem preconditions_bind_iff :
    PreconditionsBind host decision ctx fresh contract now store ↔
      BindingConditions host decision ctx fresh contract now store := by
  have hraised {pre : Precondition} (hpre : pre ∈ decision.preconditions)
      (h : pre.Incomparable host fresh) :
      c7FreshnessAndPreconditions host decision ctx fresh contract now ≠ .ok none := by
    intro hc7
    have hall := firstReason_eq_none.mp hc7 _
      (List.mem_cons_of_mem _ (List.mem_map_of_mem hpre))
    rw [h.raises] at hall
    cases hall
  constructor
  · intro h
    refine ⟨fun pre hpre hstrays => ?_, fun pre hpre hincomparable hearly => ?_⟩
    · by_contra hnone
      push Not at hnone
      obtain ⟨hearly, hfresh, hpasses, hlate⟩ := hnone
      obtain ⟨r, hr, hadmitted⟩ := admitted_iff_pass.mpr ⟨hearly, hfresh, hpasses, hlate⟩
      obtain ⟨ref, hnames, htrue⟩ := h.accepted r hr hadmitted pre hpre
      exact hstrays.2 ref hnames htrue
    · exact c7_refuses_iff.mp ((refused_iff (hraised hpre hincomparable)).mp
        (h.refused pre hpre hincomparable) hearly)
  · intro h
    refine ⟨fun r hr hadmitted pre hpre => ?_, fun pre hpre hincomparable => ?_⟩
    · obtain ⟨hearly, hfresh, hpasses, hlate⟩ := admitted_iff_pass.mp ⟨r, hr, hadmitted⟩
      by_contra hnone
      push Not at hnone
      rcases h.strays pre hpre ⟨hpasses pre hpre, hnone⟩ with hn | hn | ⟨other, hother, hn⟩ | hn
      · exact hn hearly
      · exact hn hfresh
      · exact hn (hpasses other hother)
      · exact hn hlate
    · exact (refused_iff (hraised hpre hincomparable)).mpr fun hearly =>
        c7_refuses_iff.mpr (h.incomparable pre hpre hincomparable hearly)

end Bindings

/-! ### A fact of another job -/

/-- A context of one job with a fact of another, which is hours old. -/
def foreignContext (value : String) : ControlContext where
  snapshotId := "s"
  decisionType := "route_next_job"
  contractVersion := "route_next_job/v1"
  scopePath := "org:r/workload:w/job:c"
  compiledAt := ""
  invariants := []
  workload := []
  workflow := []
  job :=
    [{ factId := "f", predicate := "phase_test_verified", subjectId := "d"
       scopePath := "org:r/workload:w/job:d", value := value, valueType := "bool"
       authority := "MEASURED", epistemicStatus := "observed", observedAt := ""
       ageSeconds := 9000, reducerVersion := "job_facts/v1", evidenceIds := [] }]
  resource := []
  unknowns := []
  conflicts := []
  stale := []
  advisory := []
  evidenceIds := []
  admissible := true
  refusal := ""

/-- A decision to go on while a phase of the job itself, read ten minutes ago at most, holds. -/
def continueIf (op : String) (value : Json) : ControlDecision where
  decisionId := "d"
  snapshotId := "s"
  decisionType := "route_next_job"
  contractVersion := "route_next_job/v1"
  action := "continue"
  targetType := "job"
  targetId := "c"
  preconditions := [⟨"phase_test_verified", "self", op, value, 600⟩]

/-- The fact of the other job is enough for the decision. -/
theorem foreign_fact_admits :
    ¬ PreconditionsBind (tableHost [] []) (continueIf "is_true" .null) (foreignContext "true")
      (foreignContext "true") routeNextJob "" none := by
  intro h
  have hadmitted : validateDecision (tableHost [] []) (continueIf "is_true" .null)
      (foreignContext "true") (foreignContext "true") routeNextJob "" none =
        .ok ⟨true, "", ""⟩ := by
    decide +kernel
  obtain ⟨ref, ⟨hmem, -, -, hage⟩, -⟩ := h.accepted _ hadmitted rfl _ List.mem_cons_self
  obtain rfl := List.mem_singleton.mp hmem
  exact absurd hage (by decide)

end AgenticDynamics.Context
