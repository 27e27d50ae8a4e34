import AgenticDynamics.Context.Compiler

/-!
# Verdicts

What a store says about a fact in a scope does not depend on the rest of the requirement: only the
floor, the age limit and the handling come from there. A compiled context, in turn, determines what
became of each requirement, although it only has their outcomes in lists.
-/

namespace AgenticDynamics.Context

open Python

/-- What the store has for a fact in a scope. -/
inductive Verdict
  | missing (reason : String)
  | conflicted (candidates : List FactRef)
  | stale (ref : FactRef)
  | sound (authority : Authority) (ref : Except ContextError FactRef)

/-- What a requirement makes of a verdict. -/
def Verdict.finish (req : FactRequirement) : Verdict → Except ContextError Resolution
  | missing reason        => .ok (unknownFor req reason)
  | conflicted candidates =>
    .ok (.conflict { predicate := req.fact, scope := req.scope, candidates,
                     handling := req.onConflict })
  | stale ref             =>
    .ok (.stale { fact := ref, scope := req.scope, reason := "cascade",
                  handling := req.onMissing })
  | sound authority ref   =>
    if authority < req.floor then .ok (unknownFor req "below_min_authority")
    else ref.map (admitRef req)

section Verdict

variable (host : Host) (now decisionScopePath : String) (store : FactStore)
  (req : FactRequirement)

/-- The verdict on a slot whose first fact is `fact`. -/
def verdictOn (fact : CanonicalFact) (group : List CanonicalFact) : Except ContextError Verdict :=
  match factState now store fact with
  | .conflicted               => (group.mapM (toFactRef host now)).map .conflicted
  | .tombstoned | .superseded => .ok (.missing "no_fact")
  | .stale                    => (toFactRef host now fact).map .stale
  | .current                  =>
    if verifyChain host fact store.resolve ≠ [] then .ok (.missing "broken_chain")
    else .ok (.sound fact.authority (toFactRef host now fact))

/-- The facts a requirement looks at, the first of them being the one it judges. -/
def slotOf : Except ContextError (Option (List CanonicalFact)) :=
  (resolveRequirementScope req.scope decisionScopePath).map fun target =>
    target.map fun target => slotGroup (candidates decisionScopePath store req target)

def verdict : Except ContextError Verdict := do
  match ← slotOf decisionScopePath store req with
  | none                  => return .missing "out_of_scope"
  | some []               => return .missing "no_fact"
  | some (fact :: others) => verdictOn host now store fact (fact :: others)

lemma judge_eq (fact : CanonicalFact) (group : List CanonicalFact) :
    judge host now store req fact group =
      verdictOn host now store fact group >>= Verdict.finish req := by
  unfold judge verdictOn
  cases factState now store fact with
  | conflicted => cases group.mapM (toFactRef host now) <;> rfl
  | stale => cases toFactRef host now fact <;> rfl
  | current =>
    simp only
    split
    · rfl
    · rfl
  | tombstoned => rfl
  | superseded => rfl

lemma resolveRequirement_eq : resolveRequirement host now decisionScopePath store req =
    verdict host now decisionScopePath store req >>= Verdict.finish req := by
  unfold resolveRequirement verdict slotOf
  cases resolveRequirementScope req.scope decisionScopePath with
  | error e => rfl
  | ok target =>
    cases target with
    | none => rfl
    | some target =>
      simp only [Except.map, Option.map_some, bind, Except.bind]
      cases hgroup : slotGroup (candidates decisionScopePath store req target) with
      | nil => rfl
      | cons fact others => exact judge_eq host now store req fact (fact :: others)

lemma verdict_congr {req' : FactRequirement} (hfact : req'.fact = req.fact)
    (hscope : req'.scope = req.scope) :
    verdict host now decisionScopePath store req' = verdict host now decisionScopePath store req := by
  cases req
  cases req'
  cases hfact
  cases hscope
  rfl

lemma map_eq_ok {ε α β : Type} {f : α → β} {x : Except ε α} {b : β} :
    x.map f = .ok b ↔ ∃ a, x = .ok a ∧ f a = b := by
  cases x <;> simp [Except.map]

lemma reason_of_verdict {reason : String}
    (h : verdict host now decisionScopePath store req = .ok (.missing reason)) :
    reason ≠ "below_min_authority" := by
  unfold verdict verdictOn at h
  obtain ⟨slot, -, h⟩ := bind_eq_ok.mp h
  rintro rfl
  split at h
  · simp [pure, Except.pure] at h
  · simp [pure, Except.pure] at h
  · split at h
    · simp [map_eq_ok] at h
    · simp at h
    · simp at h
    · simp [map_eq_ok] at h
    · split at h <;> simp at h

end Verdict

end AgenticDynamics.Context
