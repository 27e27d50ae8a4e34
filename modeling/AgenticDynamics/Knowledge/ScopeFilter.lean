import AgenticDynamics.Library.Cypher
import AgenticDynamics.Context.Facts
import AgenticDynamics.Knowledge.RegistryLog

/-!
# Scopes, and the filter of the dense leg

A retrieval asks for a repository, an access scope and a commit, and may name scopes that are
shared with it. The rules stand twice: as a `where` document that the vector store translates to a
predicate over the properties of a node, and as gates over the metadata of a hit.
-/

namespace AgenticDynamics.Knowledge.Retrieval

open Python Cypher
open Context (Authority)

/-! ### Unions of scopes -/

/-- The scopes that a retrieval asks for; the shared ones are a text or anything that iterates. -/
structure Filters where
  repositoryId : String := ""
  commitSha : String := ""
  aclScope : String := ""
  sharedRepositoryIds : Json := .null

section Gates

variable (host : Host)

/-- What `tuple(shared_repository_ids)` gives, an object that does not iterate giving nothing. -/
def rawShared : Json → List Json
  | .null  => []
  | .str s => [.str s]
  | value  => (value.toList).toOption.getD []

/-- One item of `_normalize_shared_repository_ids`. -/
def normalizeItem (out : List String) (item : Json) : List String :=
  let scope := strip ((Json.orElse (some item) (.str "")).text host.toRuntime)
  if scope = "" ∨ host.lower scope ∈ ["*", "global", "all"] ∨ scope ∈ out then out
  else out ++ [scope]

def normalizeSharedRepositoryIds (shared : Json) : List String :=
  (rawShared shared).foldl (normalizeItem host) []

def repositoryScopeUnion (requestedScope : String) (shared : Json) : List String :=
  let requested := strip requestedScope
  (normalizeSharedRepositoryIds host shared).foldl
    (fun union scope => if scope ∈ union then union else union ++ [scope])
    (if requested ≠ "" then [requested] else [])

def aclScopeUnion (requestedAcl : String) (shared : Json) : List String :=
  repositoryScopeUnion host requestedAcl shared

/-! ### The gates -/

def scopeExcluded (candidateRepositoryId requestedScope : String) (shared : Json) : Bool :=
  let candidate := strip candidateRepositoryId
  let requested := strip requestedScope
  let shared := normalizeSharedRepositoryIds host shared
  if requested = "" ∧ shared = [] then false
  else if candidate = "" then false
  else if requested ≠ "" ∧ candidate = requested then false
  else candidate ∉ shared

def aclExcluded (candidateAcl requestedAcl : String) (shared : Json) : Bool :=
  let requested := strip requestedAcl
  if requested = "" then false
  else
    let candidate := strip candidateAcl
    if candidate = "" then false else candidate ∉ aclScopeUnion host requested shared

/-- `_coerce_authority` of a text. -/
def coerceAuthority (value : String) : Authority :=
  (Authority.ofName? (host.upper value)).getD .advisory

/-- The commit rule of `freshness_multiplier`: code of another commit. -/
def commitExcluded (authority : Authority) (commitSha currentCommit : String) : Bool :=
  currentCommit ≠ "" ∧ authority = .source ∧ commitSha ≠ "" ∧ commitSha ≠ currentCommit

/-! ### The `where` document -/

def commitExemptAuthorityNames : List String :=
  [Authority.measured.name, Authority.derived.name, Authority.advisory.name]

/-- `{"$or": [{field: value}, …]}`. -/
def anyOf (clauses : List (String × String)) : Json :=
  .obj [("$or", .arr (clauses.map fun clause => .obj [(clause.1, .str clause.2)]))]

/-- The condition that a property is one of the scopes. -/
def scopeCondition (field : String) : List String → Json
  | [scope] => .obj [(field, .str scope)]
  | scopes  => anyOf (scopes.map fun scope => (field, scope))

/-- The conditions of `_dense_filter`. -/
def denseConditions (filters : Filters) : List Json :=
  let repositoryScope :=
    repositoryScopeUnion host filters.repositoryId filters.sharedRepositoryIds
  let requestedAcl := strip filters.aclScope
  (if repositoryScope ≠ [] then [scopeCondition "repository_id" repositoryScope] else []) ++
  (if requestedAcl ≠ "" then
    [scopeCondition "acl_scope" (aclScopeUnion host requestedAcl filters.sharedRepositoryIds)]
  else []) ++
  (if filters.commitSha ≠ "" then
    [anyOf ([("commit_sha", ""), ("commit_sha", filters.commitSha)] ++
      commitExemptAuthorityNames.map fun name => ("authority", name))]
  else [])

def denseFilter (filters : Filters) : Json :=
  match denseConditions host filters with
  | []          => .obj []
  | [condition] => condition
  | conditions  => .obj [("$and", .arr conditions)]

end Gates

/-! ### The predicate of the store -/

/-- What stops the translation: a `Neo4jVectorStoreError`, or a value that does not iterate. -/
inductive StoreError
  | unsupportedNode (node : Json)
  | standaloneEq
  | unsupportedOperator (key : String) (value : Json)
  | emptyWhere
  | notIterable (typeName : String)

def StoreError.message (host : Host) : StoreError → String
  | unsupportedNode node          => "unsupported where node: " ++ host.repr node
  | standaloneEq                  => "$eq must wrap a field, not stand alone"
  | unsupportedOperator key value =>
    "unsupported operator on " ++ host.quote key ++ ": " ++ host.repr value
  | emptyWhere                    => "empty where clause"
  | notIterable typeName          => "'" ++ typeName ++ "' object is not iterable"

def paramName (start : ℕ) (params : Dict Json) : String :=
  "p" ++ toString (params.length + start)

/-- `node.key = $name`, with the value under a new name. -/
def leaf (start : ℕ) (key : String) (value : Json) (params : Dict Json) : Expr × Dict Json :=
  let name := paramName start params
  (.equals key name, Dict.set name value params)

/-- How the clauses of a combinator are joined. -/
def joined (key : String) : List Expr → Expr := if key = "$and" then .all else .any

def walkOther (start : ℕ) (key : String) (value : Json) (params : Dict Json) :
    Except StoreError (Expr × Dict Json) :=
  if key = "$and" ∨ key = "$or" then
    -- the characters of a text and the keys of a dictionary are no nodes
    match value.toList with
    | .error _        => .error (.notIterable value.typeName)
    | .ok []          => .ok (joined key [], params)
    | .ok (item :: _) => .error (.unsupportedNode item)
  else if key = "$eq" then .error .standaloneEq
  else match value with
    | .obj fields =>
      match Dict.get? "$eq" fields with
      | some inner =>
        if ∀ kv ∈ fields, kv.1 = "$eq" then .ok (leaf start key inner params)
        else .error (.unsupportedOperator key (.obj fields))
      | none => .error (.unsupportedOperator key (.obj fields))
    | value => .ok (leaf start key value params)

mutual

/-- `walk` of `_predicate`. -/
def walk (start : ℕ) : Json → Dict Json → Except StoreError (Expr × Dict Json)
  | .obj fields, params => do
    let (clauses, params) ← walkFields start fields params
    if clauses.isEmpty then .error .emptyWhere else .ok (.all clauses, params)
  | node, _ => .error (.unsupportedNode node)

def walkFields (start : ℕ) : Dict Json → Dict Json → Except StoreError (List Expr × Dict Json)
  | [], params => .ok ([], params)
  | (key, value) :: rest, params => do
    let (clause, params) ← walkField start key value params
    let (clauses, params) ← walkFields start rest params
    return (clause :: clauses, params)

def walkField (start : ℕ) (key : String) : Json → Dict Json → Except StoreError (Expr × Dict Json)
  | .arr items, params =>
    if key = "$and" ∨ key = "$or" then do
      let (clauses, params) ← walkItems start items params
      return (joined key clauses, params)
    else if key = "$eq" then .error .standaloneEq
    else .ok (leaf start key (.arr items) params)
  | value, params => walkOther start key value params

/-- The predicates of the items of a combinator. -/
def walkItems (start : ℕ) : List Json → Dict Json → Except StoreError (List Expr × Dict Json)
  | [], params => .ok ([], params)
  | node :: rest, params => do
    let (clause, params) ← walk start node params
    let (clauses, params) ← walkItems start rest params
    return (clause :: clauses, params)

end

/-- `_predicate`; none stands for the empty text. -/
def predicate (whereDoc : Json) (params : Dict Json) (start : ℕ := 0) :
    Except StoreError (Option Expr × Dict Json) := do
  if whereDoc.truthy then
    let (e, params) ← walk start whereDoc params
    return (some e, params)
  else return (none, params)

/-! ### The nodes of the store -/

/-- The properties of a node; a property that is not there is null. -/
abbrev Node := Dict String

def metadataKeys : List String :=
  ["repository_id", "acl_scope", "authority", "source_type", "evidence_class", "logical_locator",
    "commit_sha", "observed_at", "content_hash", "source_uri", "entity_id"]

/-- `k.key = coalesce(row.key, k.key)`: a field that is missing or empty is null, and a null leaves
the property as it was. -/
def coalesce (metadata : Dict String) (node : Node) (key : String) : Node :=
  match truthy (Dict.get? key metadata) with
  | some value => Dict.set key value node
  | none       => node

/-- `Neo4jVectorStore.upsert` of the metadata of one record. -/
def upsert (metadata : Dict String) (node : Node) : Node :=
  metadataKeys.foldl (coalesce metadata) node

/-- The metadata of `_hit`: a property that is null is the empty text. -/
def hitMetadata (node : Node) (field : String) : String := (Dict.get? field node).getD ""

/-- A text against a parameter; a number or a list is not equal to a text. -/
def compareText (s : String) : Json → Option Bool
  | .null  => none
  | .str t => some (s = t)
  | _      => some false

def searchParams (vector : List PyFloat) (limit : ℤ) : Dict Json :=
  [("index", .str "knowledge_embeddings_v1"), ("vec", .arr (vector.map .float)),
    ("limit", .int limit)]

def storeAccepts (whereDoc : Json) (params : Dict Json) (node : Node) : Except StoreError Bool := do
  let (e, params) ← predicate whereDoc params
  return e.elim true fun e =>
    e.Holds compareText (fun key => Dict.get? key node) (fun name => Dict.get? name params)

def gatesAllow (host : Host) (filters : Filters) (metadata : String → String) : Bool :=
  !scopeExcluded host (metadata "repository_id") filters.repositoryId filters.sharedRepositoryIds &&
    !aclExcluded host (metadata "acl_scope") filters.aclScope filters.sharedRepositoryIds &&
    !commitExcluded (coerceAuthority host (metadata "authority")) (metadata "commit_sha")
      filters.commitSha

end AgenticDynamics.Knowledge.Retrieval
