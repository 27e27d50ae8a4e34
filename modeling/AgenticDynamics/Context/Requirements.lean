import AgenticDynamics.Context.Facts

/-!
# Requirements and their composition

A contract names the facts a decision needs; a challenge profile may ask for more. The composition
goes through a dictionary keyed by the fact.
-/

namespace AgenticDynamics.Context

open Python

/-- The exceptions of the plane: `ProfileCompositionError`, other `ValueError`s, and what the
built-ins raise. -/
inductive ContextError
  | composition (text : String)
  | value (text : String)
  | type (text : String)
  | index (text : String)
  deriving DecidableEq

/-! ### Requirements -/

structure FactRequirement where
  fact : String
  scope : String := "self"
  maxAgeSeconds : Option ℤ := none
  minAuthority : String := "DERIVED"
  onMissing : String := "halt"
  onConflict : String := "halt"
  valueType : Option String := none
  deriving DecidableEq

/-- `Authority[req.min_authority]`, falling back on the derived. -/
def FactRequirement.floor (req : FactRequirement) : Authority :=
  (Authority.ofName? req.minAuthority).getD .derived

structure ContractSpec where
  decisionType : String
  contractVersion : String
  decisionScope : String := "job"
  allowedActions : List String := []
  maxSnapshotAgeSeconds : Option ℤ := none
  invariants : List FactRequirement := []
  requiresFacts : List FactRequirement := []
  excludes : List String := []

/-- What the composition reads of a `ChallengeProfile`. -/
structure ChallengeProfile where
  challenge : String
  contextRequirements : List FactRequirement

/-! ### Tightening -/

/-- `table.get(name, 0)`. -/
def strictness (table : List (String × ℕ)) (name : String) : ℕ := (table.lookup name).getD 0

def minAuthorityRank : String → ℕ :=
  strictness [("DERIVED", 0), ("SOURCE", 1), ("MEASURED", 2), ("POLICY", 3)]

def onMissingStrictness : String → ℕ :=
  strictness [("classify", 0), ("investigate", 0), ("escalate", 1), ("halt", 2)]

def onConflictStrictness : String → ℕ :=
  strictness [("classify", 0), ("prefer_higher_authority", 1), ("escalate", 2), ("halt", 2)]

def stricter (rank : String → ℕ) (existing addition : String) : String :=
  if rank existing < rank addition then addition else existing

/-- The lesser of two ages, where none is unbounded. -/
def minAge : Option ℤ → Option ℤ → Option ℤ
  | age, none        => age
  | none, some m     => some m
  | some age, some m => some (min age m)

/-- `existing.value_type or addition.value_type`. -/
def orType (existing addition : Option String) : Option String :=
  match existing with
  | some t => if t = "" then addition else some t
  | none   => addition

def tighten (host : Host) (existing addition : FactRequirement) :
    Except ContextError FactRequirement :=
  if existing.fact ≠ addition.fact then
    .error (.composition ("tighten() called on two different facts: " ++ host.quote existing.fact ++
      " vs " ++ host.quote addition.fact))
  else if existing.scope ≠ addition.scope then
    .error (.composition ("profile requires " ++ host.quote addition.fact ++ " at scope " ++
      host.quote addition.scope ++ "; the contract already requires it at scope " ++
      host.quote existing.scope ++ " — a profile may not change a contract requirement's scope"))
  else if existing.valueType.isSome ∧ addition.valueType.isSome ∧
      existing.valueType ≠ addition.valueType then
    .error (.composition ("profile requires " ++ host.quote addition.fact ++ " as " ++
      host.quote (addition.valueType.getD "") ++ "; the contract already requires it as " ++
      host.quote (existing.valueType.getD "")))
  else .ok { existing with
    maxAgeSeconds := minAge existing.maxAgeSeconds addition.maxAgeSeconds
    minAuthority := stricter minAuthorityRank existing.minAuthority addition.minAuthority
    onMissing := stricter onMissingStrictness existing.onMissing addition.onMissing
    onConflict := stricter onConflictStrictness existing.onConflict addition.onConflict
    valueType := orType existing.valueType addition.valueType }

/-! ### Composition -/

/-- `MIN_AUTHORITY_LEVELS`, sorted. -/
def minAuthorityLevels : List String := ["DERIVED", "MEASURED", "POLICY", "SOURCE"]

/-- `ON_MISSING`, sorted. -/
def onMissingValues : List String := ["classify", "escalate", "halt", "investigate"]

/-- `ON_CONFLICT`, sorted. -/
def onConflictValues : List String := ["classify", "escalate", "halt", "prefer_higher_authority"]

/-- `SCOPE_KEYWORDS`, sorted. -/
def scopeKeywords : List String :=
  ["attempt", "job", "organization", "parent", "resource", "self", "workflow", "workload"]

/-- `repr` of a list of strings. -/
def quoteAll (host : Host) (names : List String) : String :=
  "[" ++ ", ".intercalate (names.map host.quote) ++ "]"

def validateContextRequirement (host : Host) (challenge : ChallengeProfile)
    (req : FactRequirement) : Except ContextError Unit :=
  let refuse (text : String) : Except ContextError Unit :=
    .error (.composition ("challenge profile " ++ host.quote challenge.challenge ++ " requires " ++
      text))
  if req.minAuthority ∉ minAuthorityLevels then
    refuse (host.quote req.fact ++ " at min_authority " ++ host.quote req.minAuthority ++
      " — not one of " ++ quoteAll host minAuthorityLevels ++
      " (ADVISORY is deliberately excluded — mirrors core.contracts's own R5: a profile " ++
      "may never smuggle an advisory value into a decision's citable context)")
  else if req.onMissing ∉ onMissingValues then
    refuse (host.quote req.fact ++ " with on_missing " ++ host.quote req.onMissing ++
      " — not one of " ++ quoteAll host onMissingValues)
  else if req.onConflict ∉ onConflictValues then
    refuse (host.quote req.fact ++ " with on_conflict " ++ host.quote req.onConflict ++
      " — not one of " ++ quoteAll host onConflictValues)
  else if req.scope ∉ scopeKeywords then
    refuse (host.quote req.fact ++ " at scope " ++ host.quote req.scope ++ " — not one of " ++
      quoteAll host scopeKeywords)
  else match predicateSpec? req.fact with
    | none =>
      refuse ("fact " ++ host.quote req.fact ++ " — no such predicate is declared in " ++
        "FACT_PREDICATES. Declare it with a producing reducer first (mirrors R1).")
    | some spec =>
      if spec.producedBy = [] then
        refuse (host.quote req.fact ++ " — declared but produced by no reducer. " ++
          "Instrument it first (mirrors R2).")
      else .ok ()

/-- `{r.fact: r for r in requirements}`. -/
def byFact (requirements : List FactRequirement) : Dict FactRequirement :=
  requirements.foldl (fun merged r => merged.set r.fact r) []

def mergeRequirement (host : Host) (contract : ContractSpec) (challenge : ChallengeProfile)
    (merged : Dict FactRequirement) (req : FactRequirement) :
    Except ContextError (Dict FactRequirement) := do
  if req.fact ∈ contract.excludes then
    throw (.composition ("challenge profile " ++ host.quote challenge.challenge ++
      " requires fact " ++ host.quote req.fact ++ "; contract " ++
      host.quote contract.decisionType ++ " excludes it"))
  validateContextRequirement host challenge req
  match merged.get? req.fact with
  | some existing => return merged.set req.fact (← tighten host existing req)
  | none          => return merged.set req.fact req

def composeRequirements (host : Host) (contract : ContractSpec)
    (challenge : Option ChallengeProfile) : Except ContextError (List FactRequirement) :=
  match challenge with
  | none           => .ok ((byFact contract.requiresFacts).map Prod.snd)
  | some challenge => do
    let merged ← challenge.contextRequirements.foldlM (mergeRequirement host contract challenge)
      (byFact contract.requiresFacts)
    return merged.map Prod.snd

/-! ### Without a challenge -/

lemma byFact_append (requirements : List FactRequirement) (req : FactRequirement) :
    byFact (requirements ++ [req]) = (byFact requirements).set req.fact req := by
  simp [byFact]

lemma fact_of_mem_byFact {requirements : List FactRequirement} :
    ∀ kv ∈ byFact requirements, kv.1 = kv.2.fact := by
  induction requirements using List.reverseRecOn with
  | nil => simp [byFact]
  | append_singleton requirements req ih =>
    rw [byFact_append]
    intro kv hkv
    simp only [Dict.set] at hkv
    split at hkv
    · obtain ⟨kv', hkv', rfl⟩ := List.mem_map.mp hkv
      split
      · rfl
      · exact ih kv' hkv'
    · rcases List.mem_append.mp hkv with hkv | hkv
      · exact ih kv hkv
      · rw [List.mem_singleton] at hkv
        rw [hkv]

lemma nodup_byFact (requirements : List FactRequirement) :
    ((byFact requirements).map Prod.fst).Nodup := by
  induction requirements using List.reverseRecOn with
  | nil => simp [byFact]
  | append_singleton requirements req ih =>
    rw [byFact_append]
    exact Dict.nodup_set ih

lemma nodup_fact_byFact (requirements : List FactRequirement) :
    (((byFact requirements).map Prod.snd).map FactRequirement.fact).Nodup := by
  have hkeys : ((byFact requirements).map Prod.snd).map FactRequirement.fact =
      (byFact requirements).map Prod.fst := by
    rw [List.map_map]
    exact List.map_congr_left fun kv hkv => (fact_of_mem_byFact kv hkv).symm
  rw [hkeys]
  exact nodup_byFact requirements

lemma byFact_of_nodup {requirements : List FactRequirement}
    (h : (requirements.map FactRequirement.fact).Nodup) :
    byFact requirements = requirements.map fun req => (req.fact, req) := by
  induction requirements using List.reverseRecOn with
  | nil => rfl
  | append_singleton requirements req ih =>
    rw [List.map_append, List.map_singleton, List.nodup_append] at h
    obtain ⟨hnodup, -, hnew⟩ := h
    rw [byFact_append, ih hnodup, List.map_append, List.map_singleton]
    apply Dict.set_of_new
    intro kv hkv
    obtain ⟨other, hother, rfl⟩ := List.mem_map.mp hkv
    exact hnew _ (List.mem_map_of_mem hother) _ (List.mem_singleton_self _)

/-- Without a challenge the composition is the contract's own list exactly when the contract
names no fact twice. -/
theorem composeRequirements_conservative (host : Host) (contract : ContractSpec) :
    composeRequirements host contract none = .ok contract.requiresFacts ↔
      (contract.requiresFacts.map FactRequirement.fact).Nodup := by
  constructor
  · intro h
    simp only [composeRequirements, Except.ok.injEq] at h
    rw [← h]
    exact nodup_fact_byFact contract.requiresFacts
  · intro h
    simp only [composeRequirements, byFact_of_nodup h, List.map_map, Except.ok.injEq]
    exact List.map_id' contract.requiresFacts

/-! ### A host -/

mutual

/-- `json.dumps` of a text without characters to escape, or of lists of such. -/
def plainDumps : Json → String
  | .str s     => "\"" ++ s ++ "\""
  | .arr items => "[" ++ ", ".intercalate (plainDumpsAll items) ++ "]"
  | _          => "null"

def plainDumpsAll : List Json → List String
  | []            => []
  | item :: items => plainDumps item :: plainDumpsAll items

end

/-- The built-ins on the texts of a run: their digests and stamps are listed. -/
def tableHost (digests : List (String × String)) (stamps : List (String × DateTime)) : Host where
  loads _ := .error ("JSONDecodeError", "")
  repr
    | .str s => "'" ++ s ++ "'"
    | _      => ""
  upper text := text
  lower text := text
  sha256 text := (digests.lookup text).getD ""
  dumps := plainDumps
  fromisoformat text := stamps.lookup text

/-- A contract that needs the cost of the job and, for comparison, that of its parent. -/
def costAtTwoScopes : ContractSpec where
  decisionType := "route_next_job"
  contractVersion := "route_next_job/v1"
  requiresFacts := [{ fact := "job_accumulated_cost_usd" },
    { fact := "job_accumulated_cost_usd", scope := "parent" }]

/-- Two scopes of one fact are merged: the first requirement is lost. -/
theorem composeRequirements_merges_scopes :
    composeRequirements (tableHost [] []) costAtTwoScopes none =
        .ok [{ fact := "job_accumulated_cost_usd", scope := "parent" }] ∧
      composeRequirements (tableHost [] []) costAtTwoScopes none ≠
        .ok costAtTwoScopes.requiresFacts := by
  have hmerged : composeRequirements (tableHost [] []) costAtTwoScopes none =
      .ok [{ fact := "job_accumulated_cost_usd", scope := "parent" }] := by
    decide +kernel
  refine ⟨hmerged, ?_⟩
  rw [hmerged]
  decide +kernel

end AgenticDynamics.Context
