import AgenticDynamics.Context.Validator

/-!
# The applying router

`make_applying_router` may put the plane's model in the place of the one `route_step` chose. It
reads the store three times: for the context of the decision, for a fresh one, and to verify the
cited facts again.
-/

namespace AgenticDynamics.Context

open Python

/-- What the router is made with, and what it is called with: `baseline` is the answer of
`route_step`, the contract that of `load_contract`, or its `ValueError`. -/
structure Seam where
  host : Host
  contract : Except ContextError ContractSpec
  repositoryId : String
  workload : String
  cellId : String
  baseline : String

/-- The readings of `now_fn`, in their order. -/
structure Clock where
  compiledAt : String
  proposedAt : String
  freshAt : String
  validatedAt : String

structure Stores where
  first : FactStore
  fresh : FactStore
  live : FactStore

namespace Seam

variable (seam : Seam)

def request : ContextRequest where
  decisionType := "route_next_job"
  scopeType := "job"
  scopePath := "org:" ++ seam.repositoryId ++ "/workload:" ++ seam.workload ++ "/job:" ++
    seam.cellId

/-- `compile_context` with the contract it loads. -/
def compile (now : String) (store : FactStore) : Except ContextError ControlContext := do
  compileContext seam.host now store seam.request (← seam.contract) none

def decision (clock : Clock) (ctx : ControlContext) : ControlDecision :=
  routeNextJobV1 seam.host ctx seam.cellId clock.proposedAt

/-- The body of the router's `try`; none stands for an exception. Recording the snapshot and the
decision does not raise. -/
def attempt (clock : Clock) (stores : Stores) : Option String := do
  let ctx ← (seam.compile clock.compiledAt stores.first).toOption
  let decision := seam.decision clock ctx
  match seam.contract with
  | .error _     => return seam.baseline
  | .ok contract =>
    let fresh ← (seam.compile clock.freshAt stores.fresh).toOption
    let result ← (validateDecision seam.host decision ctx fresh contract clock.validatedAt
      (some stores.live)).toOption
    if result.admitted ∧ decision.action ∈ automatableActions ∧ decision.action = "route" then
      return (decision.parameters.get? "model").getD seam.baseline
    else return seam.baseline

/-- `make_applying_router`: any failure leaves the choice of `route_step`. -/
def applyingRouter (clock : Clock) (stores : Stores) : String :=
  (seam.attempt clock stores).getD seam.baseline

end Seam

/-! ### Proposals -/

/-- The decision may be made, phases remain, and `chosen` is the first of the allowed models. -/
structure Proposes (ctx : ControlContext) (chosen : String) : Prop where
  admissible : ctx.admissible
  remaining : ∃ f, find ctx.workflow "workflow_phases_remaining" = some f ∧ f.value ≠ "0"
  allowed : ∃ f, find ctx.invariants "allowed_models" = some f ∧
    ((listedModels f.value).insertionSort (· ≤ ·)).head? = some chosen

section Rule

variable {host : Host} {ctx : ControlContext} {targetId proposedAt : String}

lemma routeNextJobV1_bound : c1SnapshotBinding host (routeNextJobV1 host ctx targetId proposedAt)
    ctx = none := by
  unfold routeNextJobV1 c1SnapshotBinding
  split
  · simp
  split
  · split
    · simp
    split <;> simp
  · simp

lemma Proposes.route {chosen : String} (h : Proposes ctx chosen) :
    (routeNextJobV1 host ctx targetId proposedAt).action = "route" ∧
    (routeNextJobV1 host ctx targetId proposedAt).parameters = [("model", chosen)] ∧
    (routeNextJobV1 host ctx targetId proposedAt).preconditions = [phasesRemain] := by
  obtain ⟨hadmissible, ⟨remaining, hremaining, hne⟩, allowed, hallowed, hhead⟩ := h
  cases hmodels : (listedModels allowed.value).insertionSort (· ≤ ·) with
  | nil => simp [hmodels] at hhead
  | cons first others =>
    rw [hmodels, List.head?_cons, Option.some.injEq] at hhead
    subst hhead
    simp [routeNextJobV1, hadmissible, hremaining, hne, hallowed, hmodels]

lemma routeNextJobV1_action :
    (routeNextJobV1 host ctx targetId proposedAt).action = "route" ↔
      ∃ chosen, Proposes ctx chosen := by
  constructor
  · intro h
    unfold routeNextJobV1 at h
    split at h
    · simp at h
    next hadmissible =>
    split at h
    · next remaining allowed hremaining hallowed =>
      split at h
      · simp at h
      next hne =>
      split at h
      · simp at h
      · next chosen others hmodels =>
        exact ⟨chosen, not_not.mp hadmissible, ⟨remaining, hremaining, hne⟩, allowed, hallowed,
          by rw [hmodels]; rfl⟩
    · simp at h
  · rintro ⟨chosen, h⟩
    exact h.route.1

end Rule

/-! ### Confirmations -/

/-- What the validator asks of a route: all of it about the first context, but for the phases that
remain in the fresh one and the chains of the cited facts in the live store. -/
structure Confirmed (seam : Seam) (contract : ContractSpec) (clock : Clock) (live : FactStore)
    (ctx fresh : ControlContext) : Prop where
  vocabulary : "route" ∈ contract.allowedActions
  target : c4TargetScope seam.host (seam.decision clock ctx) ctx = none
  cited : c5FactsCitation seam.host (seam.decision clock ctx) ctx = none
  chains : c6DerivationChains seam.host (seam.decision clock ctx) ctx (some live) = none
  young : c7Freshness seam.host ctx contract clock.validatedAt = .ok none
  remains : ∃ f, findLast fresh.citable "workflow_phases_remaining" = some f ∧
    opHolds seam.host f.value "gt" (.int 0) = .ok true
  policy : c8PolicyInvariants seam.host (seam.decision clock ctx) ctx = none
  recordable : c10Recordability (seam.decision clock ctx) = none

section Confirm

variable {seam : Seam} {contract : ContractSpec} {clock : Clock} {stores : Stores}
  {ctx fresh : ControlContext} {chosen : String}

lemma c7Precondition_eq_none {host : Host} {pre : Precondition} :
    c7Precondition host fresh pre = .ok none ↔ ∃ f, findLast fresh.citable pre.fact = some f ∧
      opHolds host f.value pre.op pre.value = .ok true := by
  unfold c7Precondition
  cases findLast fresh.citable pre.fact with
  | none => simp
  | some f =>
    simp only [Option.some.injEq, exists_eq_left']
    cases opHolds host f.value pre.op pre.value with
    | error e => simp [bind, Except.bind]
    | ok holds => cases holds <;> simp [bind, Except.bind, pure, Except.pure]

lemma c7_route {host : Host} {decision : ControlDecision} {now : String}
    (hpreconditions : decision.preconditions = [phasesRemain]) :
    c7FreshnessAndPreconditions host decision ctx fresh contract now = .ok none ↔
      c7Freshness host ctx contract now = .ok none ∧
      ∃ f, findLast fresh.citable "workflow_phases_remaining" = some f ∧
        opHolds host f.value "gt" (.int 0) = .ok true := by
  rw [c7FreshnessAndPreconditions, firstReason_eq_none, hpreconditions, List.map_singleton,
    List.forall_mem_cons, List.forall_mem_singleton, c7Precondition_eq_none]
  rfl

lemma Proposes.admitted_iff (h : Proposes ctx chosen) :
    (∃ r, validateDecision seam.host (seam.decision clock ctx) ctx fresh contract
        clock.validatedAt (some stores.live) = .ok r ∧ r.admitted) ↔
      Confirmed seam contract clock stores.live ctx fresh := by
  have hroute : (seam.decision clock ctx).action = "route" ∧
      (seam.decision clock ctx).parameters = [("model", chosen)] ∧
      (seam.decision clock ctx).preconditions = [phasesRemain] := h.route
  obtain ⟨haction, -, hpreconditions⟩ := hroute
  have hadmissible : c2SnapshotAdmissibility ctx = none := by
    simp [c2SnapshotAdmissibility, h.admissible]
  have hautomatable : c9ActuationAuthorization seam.host (seam.decision clock ctx) = none := by
    simp [c9ActuationAuthorization, haction, automatableActions]
  have hvocabulary : c3ActionVocabulary seam.host (seam.decision clock ctx) contract = none ↔
      "route" ∈ contract.allowedActions := by
    simp [c3ActionVocabulary, haction]
  rw [validateDecision_admitted, hvocabulary, c7_route hpreconditions]
  constructor
  · rintro ⟨-, -, hallowed, htarget, hcited, hchains, ⟨hyoung, hremains⟩, hpolicy, -, hrecordable⟩
    exact ⟨hallowed, htarget, hcited, hchains, hyoung, hremains, hpolicy, hrecordable⟩
  · rintro ⟨hallowed, htarget, hcited, hchains, hyoung, hremains, hpolicy, hrecordable⟩
    exact ⟨routeNextJobV1_bound, hadmissible, hallowed, htarget, hcited, hchains,
      ⟨hyoung, hremains⟩, hpolicy, hautomatable, hrecordable⟩

end Confirm

/-! ### Applications -/

/-- The router has a contract and both contexts, and applies `chosen`. -/
structure Applies (seam : Seam) (clock : Clock) (stores : Stores) (contract : ContractSpec)
    (ctx fresh : ControlContext) (chosen : String) : Prop where
  loaded : seam.contract = .ok contract
  compiled : seam.compile clock.compiledAt stores.first = .ok ctx
  recompiled : seam.compile clock.freshAt stores.fresh = .ok fresh
  proposes : Proposes ctx chosen
  confirmed : Confirmed seam contract clock stores.live ctx fresh

section Apply

variable {seam : Seam} {clock : Clock} {stores : Stores} {contract : ContractSpec}
  {ctx fresh : ControlContext} {chosen : String}

lemma Applies.router (h : Applies seam clock stores contract ctx fresh chosen) :
    seam.applyingRouter clock stores = chosen := by
  obtain ⟨r, hr, hadmitted⟩ := h.proposes.admitted_iff.mpr h.confirmed
  have hroute : (seam.decision clock ctx).action = "route" ∧
      (seam.decision clock ctx).parameters = [("model", chosen)] ∧
      (seam.decision clock ctx).preconditions = [phasesRemain] := h.proposes.route
  obtain ⟨haction, hparameters, -⟩ := hroute
  simp [Seam.applyingRouter, Seam.attempt, h.compiled, h.recompiled, h.loaded, hr, hadmitted, haction,
    hparameters, automatableActions, Except.toOption, Dict.get?]

lemma applies_of_ne (h : seam.applyingRouter clock stores ≠ seam.baseline) :
    ∃ contract ctx fresh chosen, Applies seam clock stores contract ctx fresh chosen ∧
      seam.applyingRouter clock stores = chosen := by
  cases hctx : seam.compile clock.compiledAt stores.first with
  | error e => simp [Seam.applyingRouter, Seam.attempt, hctx, Except.toOption] at h
  | ok ctx =>
    cases hcontract : seam.contract with
    | error e => simp [Seam.applyingRouter, Seam.attempt, hctx, hcontract, Except.toOption] at h
    | ok contract =>
      cases hfresh : seam.compile clock.freshAt stores.fresh with
      | error e =>
        simp [Seam.applyingRouter, Seam.attempt, hctx, hcontract, hfresh, Except.toOption] at h
      | ok fresh =>
        cases hresult : validateDecision seam.host (seam.decision clock ctx) ctx fresh contract
            clock.validatedAt (some stores.live) with
        | error e =>
          simp [Seam.applyingRouter, Seam.attempt, hctx, hcontract, hfresh, hresult,
            Except.toOption] at h
        | ok result =>
          by_cases hroute : result.admitted ∧
              (seam.decision clock ctx).action ∈ automatableActions ∧
                (seam.decision clock ctx).action = "route"
          · obtain ⟨hadmitted, -, haction⟩ := hroute
            obtain ⟨chosen, hproposes⟩ := routeNextJobV1_action.mp haction
            have happlies : Applies seam clock stores contract ctx fresh chosen :=
              ⟨hcontract, hctx, hfresh, hproposes,
                hproposes.admitted_iff.mp ⟨result, hresult, hadmitted⟩⟩
            exact ⟨contract, ctx, fresh, chosen, happlies, happlies.router⟩
          · simp [Seam.applyingRouter, Seam.attempt, hctx, hcontract, hfresh, hresult, hroute,
              Except.toOption] at h

end Apply

/-- The decision may be made in the context, and the context allows the model. -/
def Allows (ctx : ControlContext) (model : String) : Prop :=
  ctx.admissible ∧ ∃ f, find ctx.invariants "allowed_models" = some f ∧
    model ∈ listedModels f.value

/-- The built-ins on the texts of the run below: the two snapshots and the decision. -/
def seamHost : Host :=
  let snapshotId := "c70aadbaec30dcdf4b63b85ed9ccac47f2a003cb41d342d231280b0195b45b80"
  let digests :=
    [("route_next_job/v1|route_next_job|org:r/workload:w/job:c|f-allowed|f-cost|f-remaining|" ++
        "f-spend|[[\"phase_test_verified\", \"self\", \"no_fact\", \"classify\"]]|[]|[]", snapshotId),
      ("route_next_job/v1|route_next_job|org:r/workload:w/job:c|f-allowed|f-cost|f-remaining|" ++
        "[[\"max_spend_usd\", \"workload\", \"no_fact\", \"halt\"], " ++
        "[\"phase_test_verified\", \"self\", \"no_fact\", \"classify\"]]|[]|[]",
        "9ba875f942d43dabdf0cd00e1442cb06d2d70509c2aa5854f318b5da1deb6ac2"),
      (snapshotId ++ "|route|c|" ++ oneOClock,
        "6438b634108959fc7e85d38b8446d6cf1f3022d25b550ec56a3684867ed02f7b")]
  { routeHost with
    sha256 := fun text => (digests.lookup text).getD (routeHost.sha256 text)
    parseFloat := fun text =>
      [("2", PyFloat.finite 2), ("1.5", .finite (3 / 2)), ("25.0", .finite 25)].lookup text }

/-- The router of one cell; `route_step` chose the other one of the two allowed models. -/
def routeSeam : Seam where
  host := seamHost
  contract := .ok routeNextJob
  repositoryId := "r"
  workload := "w"
  cellId := "c"
  baseline := "openai/gpt-6-astra"

/-- The limit of the workload is retracted between the two contexts. -/
def limitRetracted : Stores where
  first := inMemoryFactStore routeFacts
  fresh := inMemoryFactStore (routeFacts.filter fun f => f.predicate ≠ "max_spend_usd")
  live := inMemoryFactStore (routeFacts.filter fun f => f.predicate ≠ "max_spend_usd")

end AgenticDynamics.Context
