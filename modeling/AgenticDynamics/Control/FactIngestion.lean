import AgenticDynamics.Context.Facts
import AgenticDynamics.Knowledge.RegistryHead

/-!
# Registering facts

A fact is registered as a version of its entity unless the version on the log has its value
already. The producer reads the log once and chains the versions of one batch to each other; their
lines are appended afterwards.

What a digest covers is kept apart from what it leaves out: the fingerprint covers the value, the
id of a version covers the whole content and its predecessor, and neither covers the stamps.
-/

namespace AgenticDynamics.Control

open Python StableSort Knowledge
open Context (Authority)

/-! ### Facts and their digests -/

structure FactValue where
  abstractionLevel : String
  expiresAt : Option String
  predicate : String
  reducerVersion : String
  scopePath : String
  subjectId : String
  subjectType : String
  unit : String
  value : String
  valueType : String
deriving DecidableEq

/-- Everything that the id of a record covers besides the entity and the predecessor. -/
structure FactContent extends FactValue where
  evidenceIds : List String
  inputsDigest : String
  scopeType : String
  scopeId : String
  repositoryId : String
  sourceRevision : String
  authority : Authority
  evidenceClass : String
  validTo : Option String
deriving DecidableEq

structure ObservedFact where
  factEntityId : String
  content : FactContent
  observedAt : String
  validFrom : String
  entity_ne_empty : factEntityId ≠ ""
deriving DecidableEq

/-- The two digests: texts that are not empty and tell what they cover apart. -/
structure FactDigests where
  fingerprint : FactValue → String
  /-- `compute_knowledge_id` over the artifact. -/
  knowledgeId : String → FactContent → Option String → String
  fingerprint_injective : Function.Injective fingerprint
  fingerprint_ne_empty : ∀ value, fingerprint value ≠ ""
  knowledgeId_injective : ∀ {e c p e' c' p'}, knowledgeId e c p = knowledgeId e' c' p' →
    e = e' ∧ c = c' ∧ p = p'
  knowledgeId_ne_empty : ∀ e c p, knowledgeId e c p ≠ ""

/-- What of a fact's record depends on the fact and its predecessor. -/
structure FactRecord where
  fact : ObservedFact
  supersedes : Option String
deriving DecidableEq

section Registration

variable (digests : FactDigests)

/-- `REASON_PREFIX`. -/
def reasonMark : String := "fact-content="

def FactRecord.knowledgeId (r : FactRecord) : String :=
  digests.knowledgeId r.fact.factEntityId r.fact.content r.supersedes

def factFingerprint (f : ObservedFact) : String := digests.fingerprint f.content.toFactValue

def FactRecord.head (r : FactRecord) : RegistryHead :=
  ⟨r.knowledgeId digests, factFingerprint digests r.fact⟩

def factOperation (r : FactRecord) : String :=
  if (truthy r.supersedes).isSome then "supersede" else "upsert"

def factReason (r : FactRecord) : String := reasonMark ++ factFingerprint digests r.fact

def FactRecord.line (indexedAt lifecycle reason : String) (r : FactRecord) : Row where
  knowledgeId := some (r.knowledgeId digests)
  entityId := some r.fact.factEntityId
  sourceType := some "fact"
  lifecycleState := some lifecycle
  observedAt := some r.fact.observedAt
  indexedAt := some indexedAt
  supersedes := r.supersedes
  reason := some reason

/-- The line that closes the predecessor of a record. -/
def FactRecord.closing (indexedAt predecessor : String) (r : FactRecord) : Row where
  knowledgeId := some predecessor
  entityId := some r.fact.factEntityId
  lifecycleState := some "superseded"
  validTo := some r.fact.validFrom
  indexedAt := some indexedAt

/-- `registry_lines_for`, for a record that was indexed at the given moment. -/
def registryLinesFor (indexedAt : String) (r : FactRecord) (operation reason : String) :
    List Row :=
  let lifecycle :=
    if operation = "upsert" ∨ operation = "supersede" then "current" else "tombstoned"
  let line := r.line digests indexedAt lifecycle reason
  match truthy r.supersedes with
  | some predecessor =>
    if operation = "supersede" then [line, r.closing indexedAt predecessor] else [line]
  | none => [line]

/-- The lines that a record is registered with. -/
def recordRows (indexedAt : String) (r : FactRecord) : List Row :=
  registryLinesFor digests indexedAt r (factOperation r) (factReason digests r)

/-- The lines of some records, behind the log. -/
def register (indexedAt : String) (log : List Line) (records : List FactRecord) : List Line :=
  log ++ records.flatMap fun r => (recordRows digests indexedAt r).map .row

/-! ### What the producer knows of an entity -/

def rowFingerprint (r : Row) : Option String :=
  let reason := r.reason.getD ""
  if startsWith reason reasonMark then
    some (String.ofList (reason.toList.drop reasonMark.toList.length))
  else none

/-- The rows of the log that say something of the entity. -/
def entityLines (e : String) (log : List Line) : List Row :=
  log.filterMap fun
    | .row r => if r.entityId = some e ∧ r.kid ≠ "" then some r else none
    | _      => none

/-- An entry of `_registry_state_map`. -/
structure RegistryState where
  headObservedAt : Option String
  fingerprints : List String

/-- The entry of an entity; without rows there is none, which says as little as an empty one. -/
def registryState (e : String) (log : List Line) : RegistryState :=
  let scan := log.foldl (HeadScan.step e) {}
  { headObservedAt := (scan.order.reverse.find? fun kid => kid ∉ scan.superseded).bind fun kid =>
      (scan.lines.get? kid).bind Row.observedAt
    fingerprints := (entityLines e log).filterMap rowFingerprint }

/-- The guard: the fact is older than the head on the log, and its value was registered before. -/
def Stale (state : RegistryState) (f : ObservedFact) : Prop :=
  ∃ head ∈ truthy state.headObservedAt, f.observedAt ≠ "" ∧ f.observedAt < head ∧
    factFingerprint digests f ∈ state.fingerprints

instance (state : RegistryState) (f : ObservedFact) : Decidable (Stale digests state f) :=
  decidable_of_iff ((truthy state.headObservedAt).any fun head => f.observedAt ≠ "" ∧
      f.observedAt < head ∧ factFingerprint digests f ∈ state.fingerprints) (by
    cases h : truthy state.headObservedAt <;> simp [Stale, h])

/-- The record that a fact gives in front of a head, if it gives one. -/
def verdict (state : RegistryState) (head : Option RegistryHead) (f : ObservedFact) :
    Option FactRecord :=
  match head with
  | none      => some ⟨f, none⟩
  | some head =>
    if head.fingerprint ≠ "" ∧ head.fingerprint = factFingerprint digests f then none
    else if head.knowledgeId = FactRecord.knowledgeId digests ⟨f, none⟩ then none
    else if Stale digests state f then none
    else some ⟨f, some head.knowledgeId⟩

/-! ### One batch -/

structure Derivation where
  pendingHead : Dict RegistryHead := []
  records : List FactRecord := []
  /-- `identity_out`. -/
  identity : List (ObservedFact × String) := []

/-- The head that a fact meets: that of the batch, or the one on the log. -/
def Derivation.head (log : List Line) (d : Derivation) (e : String) : Option RegistryHead :=
  (d.pendingHead.get? e).or (registryHead e reasonMark (some log))

/-- The fact is registered under a head that stays. -/
def Derivation.keep (d : Derivation) (f : ObservedFact) (head : RegistryHead) : Derivation :=
  { d with
    pendingHead := d.pendingHead.set f.factEntityId head
    identity := d.identity ++ [(f, head.knowledgeId)] }

def Derivation.emit (d : Derivation) (r : FactRecord) : Derivation where
  pendingHead := d.pendingHead.set r.fact.factEntityId (r.head digests)
  records := d.records ++ [r]
  identity := d.identity ++ [(r.fact, r.knowledgeId digests)]

def Derivation.step (log : List Line) (d : Derivation) (f : ObservedFact) : Derivation :=
  let head := d.head log f.factEntityId
  match verdict digests (registryState f.factEntityId log) head f with
  | some r => d.emit digests r
  | none   => head.elim d (d.keep f)

def deriveFactRecords (log : List Line) (facts : List ObservedFact) : Derivation :=
  (sortBy ObservedFact.observedAt facts).foldl (Derivation.step digests log) {}

/-! ### One entity -/

/-- The records of one entity, given the head that its first fact meets. -/
def chain (state : RegistryState) : Option RegistryHead → List ObservedFact → List FactRecord
  | _, []         => []
  | head, f :: fs =>
    match verdict digests state head f with
    | some r => r :: chain state (some (r.head digests)) fs
    | none   => chain state head fs

/-- The facts of an entity in the order in which they were observed. -/
def factsOf (e : String) (facts : List ObservedFact) : List ObservedFact :=
  (sortBy ObservedFact.observedAt facts).filter fun f => f.factEntityId = e

variable {digests} {e : String} {log : List Line}

lemma verdict_fact {state : RegistryState} {head : Option RegistryHead} {f : ObservedFact}
    {r : FactRecord} (h : verdict digests state head f = some r) : r.fact = f := by
  cases head with
  | none =>
    cases h
    rfl
  | some head =>
    simp only [verdict] at h
    split_ifs at h
    cases h
    rfl

lemma records_of_entity (facts : List ObservedFact) (d : Derivation) :
    (facts.foldl (Derivation.step digests log) d).records.filter
        (fun r => r.fact.factEntityId = e) =
      d.records.filter (fun r => r.fact.factEntityId = e) ++
        chain digests (registryState e log) (d.head log e)
          (facts.filter fun f => f.factEntityId = e) := by
  induction facts generalizing d with
  | nil => simp [chain]
  | cons f fs ih =>
    rw [List.foldl_cons, ih]
    by_cases hf : f.factEntityId = e
    · rw [List.filter_cons_of_pos (by simpa using hf), chain, Derivation.step]
      subst hf
      cases hverdict : verdict digests (registryState f.factEntityId log)
          (d.head log f.factEntityId) f with
      | some r =>
        have hr := verdict_fact hverdict
        simp [Derivation.emit, Derivation.head, Dict.get?_set, hr]
      | none =>
        cases hhead : d.head log f.factEntityId with
        | none => simp [hhead, verdict] at hverdict
        | some head => simp [Derivation.keep, Derivation.head, Dict.get?_set]
    · rw [List.filter_cons_of_neg (by simpa using hf), Derivation.step]
      cases hverdict : verdict digests (registryState f.factEntityId log)
          (d.head log f.factEntityId) f with
      | some r =>
        have hr := verdict_fact hverdict
        simp [Derivation.emit, Derivation.head, Dict.get?_set, hr, hf]
      | none =>
        cases hhead : d.head log f.factEntityId with
        | none => simp
        | some head => simp [Derivation.keep, Derivation.head, Dict.get?_set, hf]

lemma deriveFactRecords_entity (facts : List ObservedFact) :
    (deriveFactRecords digests log facts).records.filter (fun r => r.fact.factEntityId = e) =
      chain digests (registryState e log) (registryHead e reasonMark (some log))
        (factsOf e facts) := by
  rw [deriveFactRecords, records_of_entity]
  simp [Derivation.head, Dict.get?, factsOf]

end Registration

end AgenticDynamics.Control
