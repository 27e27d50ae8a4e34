import AgenticDynamics.Library.JsonText
import AgenticDynamics.Library.Lines

/-!
# Session bindings

The binding of a native session says which task the session runs, for which request, and which
verbs it holds. `binding_payload` brings any JSON binding to its canonical form; the authorization
identity is the hash of the authorization fields of that form.
-/

namespace AgenticDynamics.Knowledge.SessionBinding

open Python Python.Json

/-! ### Canonical values -/

/-- A text without white space at its ends. -/
def Stripped : Type := {s : String // strip s = s}
  deriving DecidableEq

def Token : Type := {s : String // strip s = s ∧ s ≠ ""}
  deriving DecidableEq

def stripped (s : String) : Stripped := ⟨strip s, strip_strip s⟩

def Stripped.token? (s : Stripped) : Option Token :=
  if h : s.1 = "" then none else some ⟨s.1, s.2, h⟩

@[simp] lemma stripped_val (s : Stripped) : stripped s.1 = s := Subtype.ext s.2

@[simp] lemma token?_token (t : Token) : (stripped t.1).token? = some t := by
  have hval : stripped t.1 = ⟨t.1, t.2.1⟩ := Subtype.ext t.2.1
  rw [hval]
  exact dif_neg t.2.2

/-- `BINDING_ACCEPTANCE_SOURCES`. -/
inductive Source
  | raw | interpretation
  deriving DecidableEq

def Source.value : Source → String
  | raw            => "raw"
  | interpretation => "interpretation"

def Source.parse (text : String) : Except String Source :=
  if text = "raw" then .ok .raw
  else if text = "interpretation" then .ok .interpretation
  else .error "ValueError"

@[simp] lemma parse_value (source : Source) : Source.parse source.value = .ok source := by
  cases source <;> rfl

/-- What counts as done; what a model has extracted says where it comes from. -/
structure Acceptance where
  text : Token
  version : ℤ
  source : Source
  provenance : Stripped
  cited : source = .interpretation → provenance.1 ≠ ""
  deriving DecidableEq

structure Predecessor where
  slug : Token
  knowledgeIds : List Token
  deriving DecidableEq

structure Capabilities where
  version : ℤ
  role : Stripped
  verbs : List Token
  grantedAt : Stripped
  deriving DecidableEq

structure DerivedFrom where
  parentSession : Stripped
  parentAuthorization : Token
  deriving DecidableEq

/-- The session's identity and the fields of `AUTHORIZATION_FIELDS`. -/
structure Auth where
  nativeSessionId : Token
  taskIdentity : Token
  resolvedAgent : Token
  acceptance : Option Acceptance
  predecessor : Option Predecessor
  workUnit : Stripped
  project : Stripped
  sourceRevision : Stripped
  capabilities : Option Capabilities
  derivedFrom : Option DerivedFrom
  deriving DecidableEq

structure Payload where
  auth : Auth
  initiatingMessageId : Stripped
  taskIdentitySource : Token
  originalRequest : Token
  originalRequestSha256 : String
  nextAction : Stripped
  blocker : Stripped
  createdAt : Stripped
  contextVersion : ℤ
  updatedAt : Stripped
  contextHistory : List (Dict Json)
  authorizationVersion : ℤ
  epoch_pos : 1 ≤ authorizationVersion

/-- The verbs held; a binding without a vector holds none. -/
def Auth.verbs (a : Auth) : List Token := (a.capabilities.map (·.verbs)).getD []

/-! ### The canonical form as JSON -/

def Acceptance.fields (a : Acceptance) : Dict Json :=
  [("text", .str a.text.1), ("version", .int a.version), ("source", .str a.source.value),
    ("provenance", .str a.provenance.1)]

def Predecessor.fields (p : Predecessor) : Dict Json :=
  [("slug", .str p.slug.1), ("knowledge_ids", .arr (p.knowledgeIds.map fun t => .str t.1))]

def Capabilities.fields (c : Capabilities) : Dict Json :=
  [("version", .int c.version), ("role", .str c.role.1),
    ("verbs", .arr (c.verbs.map fun t => .str t.1)), ("granted_at", .str c.grantedAt.1)]

def DerivedFrom.fields (d : DerivedFrom) : Dict Json :=
  [("parent_session_id", .str d.parentSession.1),
    ("parent_authorization_id", .str d.parentAuthorization.1)]

/-- An object, or `None`. -/
def optional {α : Type} (fields : α → Dict Json) (value : Option α) : Json :=
  (value.map fun v => Json.obj (fields v)).getD .null

/-- What `binding_authorization_id` hashes: an optional field that is absent is left out. -/
def Auth.canonical (a : Auth) : Dict Json :=
  [("native_session_id", .str a.nativeSessionId.1), ("task_identity", .str a.taskIdentity.1),
    ("resolved_agent", .str a.resolvedAgent.1), ("repository_id", .str ""),
    ("acceptance", optional Acceptance.fields a.acceptance),
    ("predecessor", optional Predecessor.fields a.predecessor),
    ("work_unit", .str a.workUnit.1), ("project", .str a.project.1),
    ("source_revision", .str a.sourceRevision.1)] ++
    ((a.capabilities.map fun c => ("capabilities", Json.obj c.fields)).toList ++
      (a.derivedFrom.map fun d => ("derived_from", Json.obj d.fields)).toList)

section Build

variable (host : Host) (ft : FloatText)

/-- `binding_authorization_id`. -/
def Auth.identity (a : Auth) : String := host.sha256 (dumps ft (.obj a.canonical))

def Payload.fields (p : Payload) : Dict Json :=
  [("native_session_id", .str p.auth.nativeSessionId.1),
    ("resolved_agent", .str p.auth.resolvedAgent.1),
    ("initiating_message_id", .str p.initiatingMessageId.1),
    ("task_identity", .str p.auth.taskIdentity.1),
    ("task_identity_source", .str p.taskIdentitySource.1),
    ("project", .str p.auth.project.1),
    ("original_request", .str p.originalRequest.1),
    ("original_request_sha256", .str p.originalRequestSha256),
    ("source_revision", .str p.auth.sourceRevision.1),
    ("acceptance", optional Acceptance.fields p.auth.acceptance),
    ("predecessor", optional Predecessor.fields p.auth.predecessor),
    ("capabilities", optional Capabilities.fields p.auth.capabilities),
    ("derived_from", optional DerivedFrom.fields p.auth.derivedFrom),
    ("work_unit", .str p.auth.workUnit.1),
    ("next_action", .str p.nextAction.1),
    ("blocker", .str p.blocker.1),
    ("created_at", .str p.createdAt.1),
    ("context_version", .int p.contextVersion),
    ("updated_at", .str p.updatedAt.1),
    ("context_history", .arr (p.contextHistory.map .obj)),
    ("authorization_id", .str (p.auth.identity host ft)),
    ("authorization_version", .int p.authorizationVersion)]

/-! ### `binding_payload` -/

def bindingText (value : Option Json) : Stripped :=
  stripped (match value with
    | none | some .null => ""
    | some value        => value.text host.toRuntime)

def contentValue (binding : Dict Json) (field : String) : Except String Token :=
  let value := Json.orElse (Dict.get? field binding) (.str "")
  match (stripped (value.text host.toRuntime)).token? with
  | some t => .ok t
  | none   => .error "ValueError"

/-- `int(value or 1)`. -/
def versionOf (value : Option Json) : Except String ℤ :=
  (Json.orElse value (.int 1)).toInt host.toRuntime

/-- `[str(v).strip() for v in value or [] if str(v).strip()]`, one text being a list of itself. -/
def tokens (value : Option Json) : Except String (List Token) := do
  let items ← match Json.orElse value (.arr []) with
    | .str s => .ok [.str s]
    | other  => other.toList
  .ok (items.filterMap fun v => (stripped (v.text host.toRuntime)).token?)

def acceptanceOf (value : Option Json) : Except String (Option Acceptance) :=
  match value with
  | some (.obj raw) =>
    match (bindingText host (Dict.get? "text" raw)).token? with
    | none      => .ok none
    | some text => do
      let named := bindingText host (Dict.get? "source" raw)
      let source ← Source.parse (if named.1 = "" then "raw" else named.1)
      let provenance := bindingText host (Dict.get? "provenance" raw)
      if cited : source = .interpretation → provenance.1 ≠ "" then
        let version ← versionOf host (Dict.get? "version" raw)
        .ok (some { text, version, source, provenance, cited })
      else .error "ValueError"
  | _               => .ok none

def predecessorOf (value : Option Json) : Except String (Option Predecessor) :=
  match value with
  | some (.obj raw) =>
    match (bindingText host (Dict.get? "slug" raw)).token? with
    | none      => .ok none
    | some slug => do
      let knowledgeIds ← tokens host (Dict.get? "knowledge_ids" raw)
      .ok (some { slug, knowledgeIds })
  | _               => .ok none

def capabilitiesOf (value : Option Json) : Except String (Option Capabilities) :=
  match value with
  | some (.obj raw) => do
    let version ← versionOf host (Dict.get? "version" raw)
    let verbs ← tokens host (Dict.get? "verbs" raw)
    .ok (some
      { version, role := bindingText host (Dict.get? "role" raw), verbs,
        grantedAt := bindingText host (Dict.get? "granted_at" raw) })
  | _               => .ok none

def derivedFromOf (value : Option Json) : Option DerivedFrom :=
  match value with
  | some (.obj raw) =>
    (bindingText host (Dict.get? "parent_authorization_id" raw)).token?.map fun authorization =>
      { parentSession := bindingText host (Dict.get? "parent_session_id" raw)
        parentAuthorization := authorization }
  | _               => none

/-- `BINDING_CONTEXT_HISTORY`. -/
def historyBound : ℕ := 10

/-- The last entries of the history that are objects. -/
def historyOf (value : Option Json) : Except String (List (Dict Json)) :=
  match Json.orElse value (.arr []) with
  | .arr items => .ok ((items.drop (items.length - historyBound)).filterMap fun
    | .obj entry => some entry
    | _          => none)
  | .str _     => .ok []
  | _          => .error "TypeError"

/-- The epoch that a binding carries, 1 where it carries none. -/
def epochOf (value : Option Json) : {n : ℤ // 1 ≤ n} :=
  match value with
  | some (.int n) => if h : 1 ≤ n then ⟨n, h⟩ else ⟨1, le_refl 1⟩
  | _             => ⟨1, le_refl 1⟩

def authOf (binding : Dict Json) : Except String Auth := do
  let nativeSessionId ← contentValue host binding "native_session_id"
  let resolvedAgent ← contentValue host binding "resolved_agent"
  let taskIdentity ← contentValue host binding "task_identity"
  let acceptance ← acceptanceOf host (Dict.get? "acceptance" binding)
  let predecessor ← predecessorOf host (Dict.get? "predecessor" binding)
  let capabilities ← capabilitiesOf host (Dict.get? "capabilities" binding)
  .ok
    { nativeSessionId, resolvedAgent, taskIdentity, acceptance, predecessor, capabilities,
      workUnit := bindingText host (Dict.get? "work_unit" binding)
      project := bindingText host (Dict.get? "project" binding)
      sourceRevision := bindingText host (Dict.get? "source_revision" binding)
      derivedFrom := derivedFromOf host (Dict.get? "derived_from" binding) }

def bindingPayload (binding : Dict Json) : Except String Payload := do
  let auth ← authOf host binding
  let originalRequest ← contentValue host binding "original_request"
  let contextHistory ← historyOf (Dict.get? "context_history" binding)
  let contextVersion ← versionOf host (Dict.get? "context_version" binding)
  let carried := bindingText host (Dict.get? "original_request_sha256" binding)
  let hashed := if carried.1 = "" then host.sha256 originalRequest.1 else carried.1
  let source := bindingText host (Dict.get? "task_identity_source" binding)
  let epoch := epochOf (Dict.get? "authorization_version" binding)
  .ok
    { auth, originalRequest, contextHistory, contextVersion
      initiatingMessageId := bindingText host (Dict.get? "initiating_message_id" binding)
      taskIdentitySource := source.token?.getD ⟨"explicit", by decide +kernel, by decide⟩
      originalRequestSha256 := hashed
      nextAction := bindingText host (Dict.get? "next_action" binding)
      blocker := bindingText host (Dict.get? "blocker" binding)
      createdAt := bindingText host (Dict.get? "created_at" binding)
      updatedAt := bindingText host (Dict.get? "updated_at" binding)
      authorizationVersion := epoch.1
      epoch_pos := epoch.2 }

end Build
section Build

variable (host : Host) (ft : FloatText)

/-! ### Minting a child -/

/-- `ROLE_CAPABILITIES`; a role without a grant gets `DEFAULT_CAPABILITIES`, none. -/
def roleCapabilities (role : String) : List String :=
  if role = "aio-control" then ["run_workflow", "promote", "abandon"] else []

/-- The verbs of a declared vector; a binding without one holds none. -/
def declaredVerbs (binding : Dict Json) : Except String (List Token) :=
  match Dict.get? "capabilities" binding with
  | some (.obj capabilities) => do
    let items ← (Json.orElse (Dict.get? "verbs" capabilities) (.arr [])).toList
    .ok (items.filterMap fun v => (stripped (v.text host.toRuntime)).token?)
  | _                        => .ok []

/-- The child's binding: the parent's task, the verbs and the authorization it descends from. -/
def scopedBinding (parent : Dict Json) (child role now authorization : String)
    (verbs : List String) : Dict Json :=
  let text (field : String) : Json := .str (bindingText host (Dict.get? field parent)).1
  [("native_session_id", .str (strip child)), ("resolved_agent", .str role),
    ("task_identity", text "task_identity"), ("original_request", text "original_request"),
    ("source_revision", text "source_revision"),
    ("acceptance", (Dict.get? "acceptance" parent).getD .null),
    ("predecessor", (Dict.get? "predecessor" parent).getD .null),
    ("work_unit", text "work_unit"), ("project", text "project"),
    ("capabilities", .obj [("version", .int 1), ("role", .str role),
      ("verbs", .arr (verbs.map .str)), ("granted_at", .str now)]),
    ("derived_from", .obj [("parent_session_id", text "native_session_id"),
      ("parent_authorization_id", .str authorization)]),
    ("created_at", .str now), ("context_version", .int 1)]

/-- The identity that the parent carries, or the one of its canonical form. -/
def parentAuthorization (parent : Dict Json) : Except String String :=
  let carried := bindingText host (Dict.get? "authorization_id" parent)
  if carried.1 = "" then (bindingPayload host parent).map fun p => p.auth.identity host ft
  else .ok carried.1

def mintScopedBinding (parent : Dict Json) (child role now : String) :
    Except String (Dict Json) := do
  let parentVerbs ← declaredVerbs host parent
  let roleName := strip role
  let verbs := (roleCapabilities roleName).filter fun verb => verb ∈ parentVerbs.map (·.1)
  let authorization ← parentAuthorization host ft parent
  .ok (scopedBinding host parent child roleName now authorization verbs)

/-! ### Updating the context -/

/-- `int(n or 1)`: a version of 0 is read as 1. -/
def settleVersion (n : ℤ) : ℤ := if n = 0 then 1 else n

/-- `BINDING_CONTEXT_FIELDS`. -/
def contextFields : List String :=
  ["capabilities", "acceptance", "predecessor", "work_unit", "next_action", "blocker", "project",
    "source_revision"]

/-- The binding with the fields of the context that an update may change. -/
def mergeContext (context : Dict Json) : List String → Dict Json → Dict Json
  | [],              binding => binding
  | field :: fields, binding =>
    mergeContext context fields (match Dict.get? field context with
      | some value => Dict.set field value binding
      | none       => binding)

/-- The history entry of a version that is left. -/
def historyEntry (p : Payload) (version : ℤ) : Dict Json :=
  [("version", .int version), ("updated_at", .str p.updatedAt.1)] ++
    contextFields.map fun field => (field, (Dict.get? field (p.fields host ft)).getD .null)

/-- `_apply_context_update`, for the binding that was read under the lock. The epoch of a payload
is an integer from 1 on, so `binding_authorization_version` reads it. -/
def applyContextUpdate (p : Payload) (context : Dict Json) (expected : ℤ) (now : String) :
    Except String Payload := do
  let version := settleVersion p.contextVersion
  if expected ≠ version then .error "ValueError"
  else do
    let merged := mergeContext context contextFields (p.fields host ft)
    let previous ← bindingPayload host (p.fields host ft)
    let updated ← bindingPayload host merged
    let epoch :=
      if updated.auth.identity host ft ≠ previous.auth.identity host ft then
        p.authorizationVersion + 1
      else p.authorizationVersion
    let history := p.contextHistory ++ [historyEntry host ft p version]
    bindingPayload host
      (Dict.set "context_history"
        (.arr ((history.drop (history.length - historyBound)).map .obj))
        (Dict.set "updated_at" (.str now) (Dict.set "context_version" (.int (version + 1))
          (Dict.set "authorization_version" (.int epoch) merged))))

end Build

/-! ### Reading a payload back -/

section Canonical

variable {host : Host} {ft : FloatText}

def Acceptance.settle (a : Acceptance) : Acceptance := { a with version := settleVersion a.version }

def Capabilities.settle (c : Capabilities) : Capabilities :=
  { c with version := settleVersion c.version }

/-- What the canonical form of a payload's authorization fields is. -/
def Auth.settle (a : Auth) : Auth :=
  { a with
    acceptance := a.acceptance.map Acceptance.settle
    capabilities := a.capabilities.map Capabilities.settle }

@[simp] lemma bindingText_stripped (s : Stripped) : bindingText host (some (.str s.1)) = s :=
  stripped_val s

@[simp] lemma bindingText_str (s : String) : bindingText host (some (.str s)) = stripped s := rfl

lemma orElse_token (t : Token) (fallback : Json) :
    Json.orElse (some (.str t.1)) fallback = .str t.1 := by
  simp [Json.orElse, Json.truthy, t.2.2]

lemma contentValue_token {binding : Dict Json} {field : String} {t : Token}
    (h : Dict.get? field binding = some (.str t.1)) : contentValue host binding field = .ok t := by
  simp [contentValue, h, orElse_token, Json.text]

lemma versionOf_int (n : ℤ) : versionOf host (some (.int n)) = .ok (settleVersion n) := by
  by_cases hn : n = 0 <;> simp [versionOf, Json.orElse, Json.truthy, hn, settleVersion, Json.toInt]

lemma filterMap_tokens (ts : List Token) :
    (ts.map fun t => Json.str t.1).filterMap
      (fun v => (stripped (v.text host.toRuntime)).token?) = ts := by
  rw [List.filterMap_map]
  have hid : (fun v : Json => (stripped (v.text host.toRuntime)).token?) ∘
      (fun t : Token => Json.str t.1) = some := by
    funext t
    simp [Json.text]
  rw [hid, List.filterMap_some]

lemma orElse_tokens (ts : List Token) :
    Json.orElse (some (.arr (ts.map fun t => Json.str t.1))) (.arr []) =
      .arr (ts.map fun t => Json.str t.1) := by
  cases ts <;> simp [Json.orElse, Json.truthy]

lemma tokens_map (ts : List Token) :
    tokens host (some (.arr (ts.map fun t => Json.str t.1))) = .ok ts := by
  rw [tokens, orElse_tokens]
  simp only [Json.toList, bind, Except.bind, filterMap_tokens]

lemma acceptanceOf_optional (a : Option Acceptance) :
    acceptanceOf host (some (optional Acceptance.fields a)) = .ok (a.map Acceptance.settle) := by
  cases a with
  | none => rfl
  | some a =>
    have hsource : (if (stripped a.source.value).1 = "" then "raw"
        else (stripped a.source.value).1) = a.source.value := by
      cases a.source <;> decide +kernel
    have hcited : a.source = .interpretation → a.provenance.1 ≠ "" := a.cited
    simp only [optional, Option.map_some, Option.getD_some, acceptanceOf, Acceptance.fields]
    simp only [Dict.get?, hsource, bind, Except.bind, versionOf_int, Acceptance.settle, ne_eq,
      List.find?_cons_of_pos, List.find?_cons_of_neg, decide_true, String.reduceEq, decide_false,
      Bool.false_eq_true, not_false_eq_true, Option.map_some, bindingText_str, token?_token,
      parse_value, stripped_val]
    exact dif_pos hcited

lemma predecessorOf_optional (p : Option Predecessor) :
    predecessorOf host (some (optional Predecessor.fields p)) = .ok p := by
  cases p with
  | none => rfl
  | some p =>
    simp only [optional, Option.map_some, Option.getD_some, predecessorOf, Predecessor.fields]
    simp [Dict.get?, bind, Except.bind, tokens_map]

lemma capabilitiesOf_optional (c : Option Capabilities) :
    capabilitiesOf host (some (optional Capabilities.fields c)) =
      .ok (c.map Capabilities.settle) := by
  cases c with
  | none => rfl
  | some c =>
    simp only [optional, Option.map_some, Option.getD_some, capabilitiesOf, Capabilities.fields]
    simp [Dict.get?, bind, Except.bind, tokens_map, versionOf_int, Capabilities.settle]

lemma derivedFromOf_optional (d : Option DerivedFrom) :
    derivedFromOf host (some (optional DerivedFrom.fields d)) = d := by
  cases d with
  | none => rfl
  | some d =>
    simp only [optional, Option.map_some, Option.getD_some, derivedFromOf, DerivedFrom.fields]
    simp [Dict.get?]

/-! ### The authorization fields of a binding -/

/-- The fields that `authOf` reads. -/
def authFields : List String :=
  ["native_session_id", "resolved_agent", "task_identity", "acceptance", "predecessor",
    "capabilities", "work_unit", "project", "source_revision", "derived_from"]

lemma authOf_congr {binding binding' : Dict Json}
    (h : ∀ field ∈ authFields, Dict.get? field binding = Dict.get? field binding') :
    authOf host binding = authOf host binding' := by
  simp only [authFields, List.mem_cons, List.not_mem_nil, or_false, forall_eq_or_imp,
    forall_eq] at h
  obtain ⟨h1, h2, h3, h4, h5, h6, h7, h8, h9, h10⟩ := h
  simp only [authOf, contentValue, h1, h2, h3, h4, h5, h6, h7, h8, h9, h10]

lemma authOf_fields (p : Payload) : authOf host (p.fields host ft) = .ok p.auth.settle := by
  have hid : contentValue host (p.fields host ft) "native_session_id" =
      .ok p.auth.nativeSessionId := contentValue_token rfl
  have hagent : contentValue host (p.fields host ft) "resolved_agent" = .ok p.auth.resolvedAgent :=
    contentValue_token rfl
  have htask : contentValue host (p.fields host ft) "task_identity" = .ok p.auth.taskIdentity :=
    contentValue_token rfl
  have hget (field : String) (value : Json)
      (h : Dict.get? field (p.fields host ft) = some value) := h
  simp only [authOf, hid, hagent, htask, bind, Except.bind,
    hget "acceptance" (optional Acceptance.fields p.auth.acceptance) rfl,
    hget "predecessor" (optional Predecessor.fields p.auth.predecessor) rfl,
    hget "capabilities" (optional Capabilities.fields p.auth.capabilities) rfl,
    hget "work_unit" (.str p.auth.workUnit.1) rfl, hget "project" (.str p.auth.project.1) rfl,
    hget "source_revision" (.str p.auth.sourceRevision.1) rfl,
    hget "derived_from" (optional DerivedFrom.fields p.auth.derivedFrom) rfl,
    acceptanceOf_optional, predecessorOf_optional, capabilitiesOf_optional, derivedFromOf_optional,
    bindingText_stripped]
  rfl

lemma bindingPayload_ok {binding : Dict Json} {p : Payload}
    (h : bindingPayload host binding = .ok p) :
    authOf host binding = .ok p.auth ∧
      p.authorizationVersion = (epochOf (Dict.get? "authorization_version" binding)).1 := by
  simp only [bindingPayload, bind_eq_ok] at h
  obtain ⟨auth, hauth, _, -, _, -, _, -, h⟩ := h
  cases h
  exact ⟨hauth, rfl⟩

lemma get?_mergeContext (context : Dict Json) (key : String) :
    ∀ (fields : List String) (binding : Dict Json),
      Dict.get? key (mergeContext context fields binding) =
        if key ∈ fields then (Dict.get? key context).or (Dict.get? key binding)
        else Dict.get? key binding := by
  intro fields
  induction fields with
  | nil => exact fun _ => rfl
  | cons field fields ih =>
    intro binding
    rw [mergeContext, ih]
    by_cases hkey : field = key
    · subst hkey
      cases hcontext : Dict.get? field context <;> simp [Dict.get?_set]
    · have hset : Dict.get? key (match Dict.get? field context with
          | some value => Dict.set field value binding
          | none       => binding) = Dict.get? key binding := by
        cases Dict.get? field context <;> simp [Dict.get?_set, hkey]
      simp [hset, Ne.symm hkey]

/-- The canonical fields of a payload that is updated with a context. -/
def revised (host : Host) (ft : FloatText) (p : Payload) (context : Dict Json) :
    Except String Auth :=
  authOf host (mergeContext context contextFields (p.fields host ft))

lemma epochOf_int {n : ℤ} (h : 1 ≤ n) : (epochOf (some (.int n))).1 = n := by
  simp [epochOf, h]

lemma applyContextUpdate_ok {p q : Payload} {context : Dict Json} {expected : ℤ} {now : String}
    (h : applyContextUpdate host ft p context expected now = .ok q) :
    revised host ft p context = .ok q.auth ∧
      q.authorizationVersion =
        if q.auth.identity host ft ≠ p.auth.settle.identity host ft then p.authorizationVersion + 1
        else p.authorizationVersion := by
  simp only [applyContextUpdate] at h
  split_ifs at h with hexpected
  simp only [bind_eq_ok] at h
  obtain ⟨previous, hprevious, updated, hupdated, h⟩ := h
  obtain ⟨hsettle, -⟩ := bindingPayload_ok hprevious
  obtain ⟨hrevised, -⟩ := bindingPayload_ok hupdated
  obtain ⟨hauth, hepoch⟩ := bindingPayload_ok h
  rw [authOf_fields] at hsettle
  have hprevious : previous.auth = p.auth.settle := (Except.ok.inj hsettle).symm
  have hrest (epoch version : ℤ) (history : Json) :
      authOf host (Dict.set "context_history" history (Dict.set "updated_at" (.str now)
        (Dict.set "context_version" (.int version) (Dict.set "authorization_version" (.int epoch)
          (mergeContext context contextFields (p.fields host ft)))))) =
        revised host ft p context := by
    refine authOf_congr fun field hfield => ?_
    simp only [authFields, List.mem_cons, List.not_mem_nil, or_false] at hfield
    obtain rfl | rfl | rfl | rfl | rfl | rfl | rfl | rfl | rfl | rfl := hfield <;>
      simp only [Dict.get?_set, String.reduceEq, if_false]
  rw [hrest] at hauth
  have hupdated : updated.auth = q.auth := Except.ok.inj (hrevised.symm.trans hauth)
  refine ⟨hauth, ?_⟩
  rw [hepoch]
  simp only [Dict.get?_set, String.reduceEq, if_false, if_true]
  rw [hupdated, hprevious]
  refine epochOf_int ?_
  have hpos := p.epoch_pos
  split_ifs <;> omega

/-! ### The authorization identity -/

@[simp] lemma same_int_iff {m n : ℤ} : Same (.int m) (.int n) ↔ m = n := by
  rw [Same, sortKeys_int, sortKeys_int, int.injEq]

lemma same_value {d d' : Dict Json} (key : String) {v v' : Json} (hd : (d.map Prod.fst).Nodup)
    (hd' : (d'.map Prod.fst).Nodup) (h : Same (.obj d) (.obj d'))
    (hv : Dict.get? key d = some v) (hv' : Dict.get? key d' = some v') : Same v v' := by
  have hkey := (same_obj_iff hd hd').mp h key
  simpa [hv, hv', Same] using hkey

lemma token_ext {s t : Token} (h : Same (.str s.1) (.str t.1)) : s = t :=
  Subtype.ext (same_str_iff.mp h)

lemma stripped_ext {s t : Stripped} (h : Same (.str s.1) (.str t.1)) : s = t :=
  Subtype.ext (same_str_iff.mp h)

lemma tokens_ext {ts us : List Token} (h : Same (.arr (ts.map fun t => .str t.1))
    (.arr (us.map fun t => .str t.1))) : ts = us := by
  rw [same_arr_iff, List.forall₂_map_left_iff, List.forall₂_map_right_iff] at h
  have heq : List.Forall₂ Eq ts us := h.imp fun _ _ => token_ext
  rwa [List.forall₂_eq_eq_eq] at heq

lemma acceptance_ext {a b : Acceptance} (h : Same (.obj a.fields) (.obj b.fields)) : a = b := by
  have hkeys (c : Acceptance) : (c.fields.map Prod.fst).Nodup := by simp [Acceptance.fields]
  have htext := token_ext (same_value "text" (hkeys a) (hkeys b) h rfl rfl)
  have hversion := same_int_iff.mp (same_value "version" (hkeys a) (hkeys b) h rfl rfl)
  have hsource := same_str_iff.mp (same_value "source" (hkeys a) (hkeys b) h rfl rfl)
  have hprovenance := stripped_ext (same_value "provenance" (hkeys a) (hkeys b) h rfl rfl)
  have hsource' : a.source = b.source := by
    cases ha : a.source <;> cases hb : b.source <;> simp [ha, hb, Source.value] at hsource ⊢
  cases a
  cases b
  simp_all

lemma predecessor_ext {a b : Predecessor} (h : Same (.obj a.fields) (.obj b.fields)) : a = b := by
  have hkeys (c : Predecessor) : (c.fields.map Prod.fst).Nodup := by simp [Predecessor.fields]
  have hslug := token_ext (same_value "slug" (hkeys a) (hkeys b) h rfl rfl)
  have hids := tokens_ext (same_value "knowledge_ids" (hkeys a) (hkeys b) h rfl rfl)
  cases a
  cases b
  simp_all

lemma capabilities_ext {a b : Capabilities} (h : Same (.obj a.fields) (.obj b.fields)) : a = b := by
  have hkeys (c : Capabilities) : (c.fields.map Prod.fst).Nodup := by simp [Capabilities.fields]
  have hversion := same_int_iff.mp (same_value "version" (hkeys a) (hkeys b) h rfl rfl)
  have hrole := stripped_ext (same_value "role" (hkeys a) (hkeys b) h rfl rfl)
  have hverbs := tokens_ext (same_value "verbs" (hkeys a) (hkeys b) h rfl rfl)
  have hgranted := stripped_ext (same_value "granted_at" (hkeys a) (hkeys b) h rfl rfl)
  cases a
  cases b
  simp_all

lemma derivedFrom_ext {a b : DerivedFrom} (h : Same (.obj a.fields) (.obj b.fields)) : a = b := by
  have hkeys (c : DerivedFrom) : (c.fields.map Prod.fst).Nodup := by simp [DerivedFrom.fields]
  have hsession := stripped_ext (same_value "parent_session_id" (hkeys a) (hkeys b) h rfl rfl)
  have hauth := token_ext (same_value "parent_authorization_id" (hkeys a) (hkeys b) h rfl rfl)
  cases a
  cases b
  simp_all

lemma same_null_obj {d : Dict Json} : ¬ Same .null (.obj d) := by
  intro h
  simp only [Same, sortKeys] at h
  cases h

lemma optional_ext {α : Type} {fields : α → Dict Json} {a b : Option α}
    (hext : ∀ {x y}, Same (.obj (fields x)) (.obj (fields y)) → x = y)
    (h : Same (optional fields a) (optional fields b)) : a = b := by
  cases a with
  | none =>
    cases b with
    | none   => rfl
    | some y => exact absurd h same_null_obj
  | some x =>
    cases b with
    | none   => exact absurd (Eq.symm h) same_null_obj
    | some y => rw [hext h]

lemma left_out_ext {α : Type} {fields : α → Dict Json} {a b : Option α} {d d' : Dict Json}
    (key : String) (hd : (d.map Prod.fst).Nodup) (hd' : (d'.map Prod.fst).Nodup)
    (h : Same (.obj d) (.obj d'))
    (ha : Dict.get? key d = a.map fun x => .obj (fields x))
    (hb : Dict.get? key d' = b.map fun x => .obj (fields x))
    (hext : ∀ {x y}, Same (.obj (fields x)) (.obj (fields y)) → x = y) : a = b := by
  have hkey := (same_obj_iff hd hd').mp h key
  rw [ha, hb] at hkey
  cases a with
  | none   => cases b <;> simp at hkey ⊢
  | some x =>
    cases b with
    | none   => simp at hkey
    | some y =>
      simp only [Option.map_some, Option.some.injEq] at hkey
      rw [hext hkey]

lemma canonical_keys (a : Auth) : (a.canonical.map Prod.fst).Nodup := by
  cases hcapabilities : a.capabilities <;> cases hderived : a.derivedFrom <;>
    simp [Auth.canonical, hcapabilities, hderived]

lemma canonical_capabilities (a : Auth) :
    Dict.get? "capabilities" a.canonical = a.capabilities.map fun c => .obj c.fields := by
  cases hcapabilities : a.capabilities <;> cases hderived : a.derivedFrom <;>
    simp [Auth.canonical, hcapabilities, hderived, Dict.get?]

lemma canonical_derivedFrom (a : Auth) :
    Dict.get? "derived_from" a.canonical = a.derivedFrom.map fun d => .obj d.fields := by
  cases hcapabilities : a.capabilities <;> cases hderived : a.derivedFrom <;>
    simp [Auth.canonical, hcapabilities, hderived, Dict.get?]

lemma canonical_ext {a b : Auth} (h : Same (.obj a.canonical) (.obj b.canonical)) : a = b := by
  have ha := canonical_keys a
  have hb := canonical_keys b
  have hid := token_ext (same_value "native_session_id" ha hb h rfl rfl)
  have htask := token_ext (same_value "task_identity" ha hb h rfl rfl)
  have hagent := token_ext (same_value "resolved_agent" ha hb h rfl rfl)
  have hacceptance := optional_ext acceptance_ext (same_value "acceptance" ha hb h rfl rfl)
  have hpredecessor := optional_ext predecessor_ext (same_value "predecessor" ha hb h rfl rfl)
  have hunit := stripped_ext (same_value "work_unit" ha hb h rfl rfl)
  have hproject := stripped_ext (same_value "project" ha hb h rfl rfl)
  have hrevision := stripped_ext (same_value "source_revision" ha hb h rfl rfl)
  have hcapabilities := left_out_ext "capabilities" ha hb h (canonical_capabilities a)
    (canonical_capabilities b) capabilities_ext
  have hderived := left_out_ext "derived_from" ha hb h (canonical_derivedFrom a)
    (canonical_derivedFrom b) derivedFrom_ext
  cases a
  cases b
  simp_all

/-- Two bindings have one authorization identity exactly when their canonical fields agree. -/
theorem identity_eq_iff (hsha : Function.Injective host.sha256) {a b : Auth} :
    a.identity host ft = b.identity host ft ↔ a = b := by
  refine ⟨fun h => canonical_ext (dumps_eq_iff.mp (hsha h)), fun h => by rw [h]⟩

/-! ### Verbs -/

/-- The verbs that a context sets, where it carries a vector. -/
def granted (host : Host) (context : Dict Json) : Option (List Token) :=
  match Dict.get? "capabilities" context with
  | none       => none
  | some value =>
    match capabilitiesOf host (some value) with
    | .ok c    => some ((c.map (·.verbs)).getD [])
    | .error _ => some []

lemma revised_verbs {p : Payload} {context : Dict Json} {r : Auth}
    (h : revised host ft p context = .ok r) :
    r.verbs = (granted host context).getD p.auth.verbs := by
  have hget : Dict.get? "capabilities" (mergeContext context contextFields (p.fields host ft)) =
      (Dict.get? "capabilities" context).or
        (some (optional Capabilities.fields p.auth.capabilities)) := by
    rw [get?_mergeContext, if_pos (by decide)]
    rfl
  simp only [revised, authOf, bind_eq_ok] at h
  obtain ⟨_, -, _, -, _, -, _, -, _, -, c, hc, h⟩ := h
  cases h
  rw [hget] at hc
  cases hcontext : Dict.get? "capabilities" context with
  | none =>
    rw [hcontext, Option.none_or, capabilitiesOf_optional] at hc
    cases hc
    simp only [granted, hcontext, Option.getD_none, Auth.verbs]
    cases p.auth.capabilities <;> rfl
  | some value =>
    rw [hcontext, Option.some_or] at hc
    simp [granted, hcontext, hc, Auth.verbs]

lemma declaredVerbs_fields (p : Payload) :
    declaredVerbs host (p.fields host ft) = .ok p.auth.verbs := by
  have hget : Dict.get? "capabilities" (p.fields host ft) =
      some (optional Capabilities.fields p.auth.capabilities) := rfl
  rw [declaredVerbs, hget]
  cases hcapabilities : p.auth.capabilities with
  | none => simp [optional, Auth.verbs, hcapabilities]
  | some c =>
    have hverbs : Dict.get? "verbs" c.fields = some (.arr (c.verbs.map fun t => .str t.1)) := rfl
    simp only [optional, Option.map_some, Option.getD_some, hverbs, orElse_tokens, Json.toList,
      bind, Except.bind, filterMap_tokens, Auth.verbs, hcapabilities]

/-- The role's verbs that the parent holds. -/
def scopedVerbs (p : Payload) (role : String) : List String :=
  (roleCapabilities (strip role)).filter fun verb => verb ∈ p.auth.verbs.map (·.1)

lemma historyOf_objects (entries : List (Dict Json)) :
    ∃ kept, historyOf (some (.arr (entries.map .obj))) = .ok kept := by
  cases entries with
  | nil       => exact ⟨[], rfl⟩
  | cons e es => exact ⟨_, rfl⟩

lemma bindingPayload_fields (p : Payload) :
    ∃ q, bindingPayload host (p.fields host ft) = .ok q ∧ q.auth = p.auth.settle := by
  have hrequest : contentValue host (p.fields host ft) "original_request" = .ok p.originalRequest :=
    contentValue_token rfl
  have hversion : versionOf host (Dict.get? "context_version" (p.fields host ft)) =
      .ok (settleVersion p.contextVersion) := versionOf_int p.contextVersion
  obtain ⟨kept, hkept⟩ := historyOf_objects p.contextHistory
  have hhistory : historyOf (Dict.get? "context_history" (p.fields host ft)) = .ok kept := hkept
  simp only [bindingPayload, authOf_fields, hrequest, hversion, hhistory, bind, Except.bind]
  exact ⟨_, rfl, rfl⟩

variable (host ft) in
/-- The authorization that a child minted from a payload descends from. -/
def ancestry (p : Payload) : String :=
  let carried := bindingText host (Dict.get? "authorization_id" (p.fields host ft))
  if carried.1 = "" then p.auth.settle.identity host ft else carried.1

lemma mintScopedBinding_fields (p : Payload) (child role now : String) :
    mintScopedBinding host ft (p.fields host ft) child role now =
      .ok (scopedBinding host (p.fields host ft) child (strip role) now (ancestry host ft p)
        (scopedVerbs p role)) := by
  obtain ⟨q, hq, hauth⟩ := @bindingPayload_fields host ft p
  have hparent : parentAuthorization host ft (p.fields host ft) = .ok (ancestry host ft p) := by
    simp only [parentAuthorization, ancestry, hq, ← hauth]
    split_ifs <;> rfl
  simp only [mintScopedBinding, declaredVerbs_fields, hparent, bind, Except.bind]
  rfl

end Canonical

end AgenticDynamics.Knowledge.SessionBinding
