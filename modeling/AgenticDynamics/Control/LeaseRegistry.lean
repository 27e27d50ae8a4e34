import AgenticDynamics.Library.Python

/-!
# The lease registry

Leases are outstanding claims on spend or on execution slots, kept in Redis: one hash per kind
and scope from lease id to lease, and one index hash from lease id to the key of its scope hash.
This file has the vocabulary, the refusals, and what the registry computes between a read and the
transaction that follows it.
-/

namespace AgenticDynamics.Control

open Python

/-! ### Vocabularies -/

inductive LeaseKind
  | budget | concurrency
  deriving DecidableEq

def LeaseKind.value : LeaseKind → String
  | budget      => "budget"
  | concurrency => "concurrency"

inductive ScopeKind
  | fleet | provider | model | campaign | run
  deriving DecidableEq

def ScopeKind.value : ScopeKind → String
  | fleet    => "fleet"
  | provider => "provider"
  | model    => "model"
  | campaign => "campaign"
  | run      => "run"

inductive ProviderClass
  | perToken | subscription
  deriving DecidableEq

inductive CostSource
  | metered | estimated | unknown | reconciled
  deriving DecidableEq

/-- `BUDGET_UNIT_BY_CLASS`. -/
def budgetUnit : ProviderClass → String
  | .perToken     => "usd"
  | .subscription => "window_percent"

def unitSlots : String := "slots"

def windowPercentMax : ℚ := 100

/-- A name a scope may have: `:` separates the parts of a key. -/
def ValidScopeName (name : String) : Prop := strip name ≠ "" ∧ ':' ∉ name.toList

instance (name : String) : Decidable (ValidScopeName name) :=
  inferInstanceAs (Decidable (_ ∧ _))

structure LeaseScope where
  kind : ScopeKind
  name : String
  valid : ValidScopeName name
  deriving DecidableEq

def LeaseScope.token (s : LeaseScope) : String := s.kind.value ++ ":" ++ s.name

/-! ### Refusals -/

/-- Every refusal of the registry, with the data its message quotes. -/
inductive LeaseError
  | blankScopeName (name : String)
  | scopeSeparator (name : String)
  | unparseable (leaseId detail : String)
  | malformed (detail : String)
  | notFinite (fieldName : String) (value : PyFloat)
  | notPositive (fieldName : String) (amount : ℚ)
  | noHardCap (kind : LeaseKind) (scope : LeaseScope)
  | storedCap (scope : LeaseScope) (raw : String)
  | unstatedCost (runId : String)
  | blankRunId (runId : String)
  | ttlNotPositive (ttl : ℤ)
  | blankLeaseId (leaseId : String)
  | blankProvider (provider : String)
  | unknownProvider (provider : String)
  | modelId (model : String)
  | incompleteRecord (problems : List String)
  | recordCap (provider : String) (hardCap : Option PyFloat)
  | recordReserved (provider : String) (reserved : PyFloat)
  | unknownCost (runId : String)
  | percentCap (runId : String) (cap : ℚ)
  | percentAmount (runId : String) (amount : ℚ)
  | capExceeded (kind : LeaseKind) (runId : String) (scope : LeaseScope) (amount : ℚ)
      (unit : String) (outstanding : PyFloat) (hardCap : ℚ) (live : ℕ)
  | contention (kind : LeaseKind) (runId : String) (scope : LeaseScope) (retries : ℕ)
  | releaseContention (leaseId : String) (retries : ℕ)
  | recordUnknown (runId provider : String)
  | recordExceeds (runId : String) (reserved hardCap : PyFloat)
  | recordDollarCap (provider : String) (hardCap : PyFloat)
  | recordDollars (provider : String) (reserved : PyFloat)
  | reserving (kind : LeaseKind) (scope : LeaseScope) (detail : String)
  | releasing (leaseId detail : String)
  | readingCap (scope : LeaseScope) (detail : String)
  deriving DecidableEq

/-- The class of a refusal; all three are admission errors. -/
def LeaseError.typeName : LeaseError → String
  | unknownCost _ | percentCap _ _ | percentAmount _ _ | capExceeded .. | contention ..
  | releaseContention _ _ | recordUnknown _ _ | recordExceeds _ _ _ | recordDollarCap _ _
  | recordDollars _ _ => "LeaseDeniedError"
  | reserving _ _ _ | releasing _ _ | readingCap _ _ => "LeaseUnavailableError"
  | _ => "LeaseFieldError"

def LeaseError.message (rt : Runtime) : LeaseError → String
  | blankScopeName name =>
    "scope name must be a non-empty string, got " ++ rt.repr (.str name)
  | scopeSeparator name =>
    "scope name " ++ rt.repr (.str name) ++ " must not contain ':' (the key separator) — " ++
      "it would alias another scope's counter"
  | unparseable leaseId detail =>
    "lease " ++ rt.repr (.str leaseId) ++ " holds unparseable JSON — the scope's outstanding " ++
      "total cannot be trusted: " ++ detail
  | malformed detail => detail
  | notFinite fieldName value =>
    fieldName ++ " must be a finite number (got " ++ rt.repr (.float value) ++
      ") — a missing amount is an error, never 0.0"
  | notPositive fieldName amount =>
    fieldName ++ " must be > 0 (got " ++ rt.repr (.float (.finite amount)) ++
      ") — reserving nothing is not an admission"
  | noHardCap kind scope =>
    "no hard cap for " ++ kind.value ++ " scope " ++ scope.token ++
      " — pass hard_cap= or install one with set_cap(); an uncapped scope admits nothing"
  | storedCap scope raw =>
    "stored cap for " ++ scope.token ++ " is not a number: " ++ rt.repr (.str raw)
  | unstatedCost runId =>
    "per-token budget lease for run " ++ rt.repr (.str runId) ++ " requires an explicit " ++
      "cost_source (['metered', 'estimated', 'unknown', 'reconciled']) — an unstated cost is " ++
      "not $0"
  | blankRunId runId => "run_id must be a non-empty string (got " ++ rt.repr (.str runId) ++ ")"
  | ttlNotPositive ttl =>
    "ttl_seconds must be a positive int (got " ++ rt.repr (.int ttl) ++
      ") — a lease with no expiry can wedge a scope forever"
  | blankLeaseId leaseId =>
    "lease_id must be a non-empty string (got " ++ rt.repr (.str leaseId) ++ ")"
  | blankProvider provider =>
    "provider must be a non-empty string (got " ++ rt.repr (.str provider) ++ ")"
  | unknownProvider provider =>
    "provider " ++ rt.repr (.str provider) ++ " has no declared cost class " ++
      "(known: ['anthropic', 'deepseek', 'openai']) — an unclassified provider is never assumed " ++
      "free; add it to PROVIDER_CLASSES"
  | modelId model =>
    "model must be a 'provider/model' id (got " ++ rt.repr (.str model) ++
      ") — the provider prefix is what selects the cost class"
  | incompleteRecord problems =>
    "admission record is incomplete: " ++ "; ".intercalate problems
  | recordCap provider hardCap =>
    "hard_cap_usd must be a positive dollar ceiling for per-token provider " ++
      rt.repr (.str provider) ++ " (got " ++ rt.repr ((hardCap.map Json.float).getD .null) ++ ")"
  | recordReserved provider reserved =>
    "reserved_cost_usd must be > 0 for per-token provider " ++ rt.repr (.str provider) ++
      " (got " ++ rt.repr (.float reserved) ++ ") — a per-token run that reserves nothing is an " ++
      "unbudgeted run"
  | unknownCost runId =>
    "per-token budget lease for run " ++ rt.repr (.str runId) ++ " denied: " ++
      "cost_source=unknown. Unknown cost is never free — meter or estimate the cost first."
  | percentCap runId cap =>
    "subscription budget lease for run " ++ rt.repr (.str runId) ++ " denied: hard_cap " ++
      rt.repr (.float (.finite cap)) ++ " exceeds 100.0% — subscription leases are denominated " ++
      "in window percentage points and have NO dollar cap (provider-class boundary violation)"
  | percentAmount runId amount =>
    "subscription budget lease for run " ++ rt.repr (.str runId) ++ " denied: amount " ++
      rt.repr (.float (.finite amount)) ++ " exceeds 100.0 window percentage points " ++
      "(provider-class boundary violation)"
  | capExceeded kind runId scope amount unit outstanding hardCap live =>
    kind.value ++ " lease denied for run " ++ rt.repr (.str runId) ++ " on scope " ++
      scope.token ++ ": requested " ++ rt.repr (.float (.finite amount)) ++ " " ++ unit ++
      " + outstanding " ++ rt.repr (.float outstanding) ++ " > hard cap " ++
      rt.repr (.float (.finite hardCap)) ++ " (" ++ Nat.repr live ++ " live lease(s))"
  | contention kind runId scope retries =>
    kind.value ++ " lease denied for run " ++ rt.repr (.str runId) ++ " on scope " ++
      scope.token ++ ": contention — " ++ Nat.repr retries ++ " optimistic-lock attempts all " ++
      "lost the race. Refusing rather than admitting on stale state."
  | releaseContention leaseId retries =>
    "could not release " ++ rt.repr (.str leaseId) ++ ": " ++ Nat.repr retries ++
      " optimistic-lock attempts lost the race"
  | recordUnknown runId provider =>
    "run " ++ rt.repr (.str runId) ++ " on per-token provider " ++ rt.repr (.str provider) ++
      " has cost_source=unknown — unknown cost is never free; instrument the cost or route to " ++
      "a subscription model"
  | recordExceeds runId reserved hardCap =>
    "reserved_cost_usd " ++ rt.repr (.float reserved) ++ " exceeds hard_cap_usd " ++
      rt.repr (.float hardCap) ++ " for run " ++ rt.repr (.str runId)
  | recordDollarCap provider hardCap =>
    "provider " ++ rt.repr (.str provider) ++ " is subscription-class and has NO dollar cap; " ++
      "hard_cap_usd=" ++ rt.repr (.float hardCap) ++ " crosses the provider-class boundary " ++
      "(reserve window percentage points instead)"
  | recordDollars provider reserved =>
    "provider " ++ rt.repr (.str provider) ++ " is subscription-class: marginal dollar cost is " ++
      "zero, so reserved_cost_usd must be 0.0 (got " ++ rt.repr (.float reserved) ++ ")"
  | reserving kind scope detail =>
    "lease registry Redis failure while reserving " ++ kind.value ++ " on " ++ scope.token ++
      ": " ++ detail
  | releasing leaseId detail =>
    "lease registry Redis failure while releasing " ++ rt.repr (.str leaseId) ++ ": " ++ detail
  | readingCap scope detail => "cannot read cap for " ++ scope.token ++ ": " ++ detail

/-- `LeaseScope(kind, name)`. -/
def LeaseScope.make (kind : ScopeKind) (name : String) : Except LeaseError LeaseScope :=
  if h : ValidScopeName name then .ok ⟨kind, name, h⟩
  else if strip name = "" then .error (.blankScopeName name)
  else .error (.scopeSeparator name)

/-! ### Amounts -/

/-- An amount that was checked: a finite float above zero. -/
structure Amount where
  value : ℚ
  pos : 0 < value
  inRange : value ≤ floatMax
  deriving DecidableEq

def Amount.one : Amount := ⟨1, by norm_num, by decide +kernel⟩

def requireAmount (fieldName : String) : PyFloat → Except LeaseError Amount
  | .finite q =>
    if hrange : q ≤ floatMax then
      if hpos : 0 < q then .ok ⟨q, hpos, hrange⟩ else .error (.notPositive fieldName q)
    else .error (.notFinite fieldName (.finite q))
  | value => .error (.notFinite fieldName value)

/-! ### Leases -/

structure Lease where
  leaseId : String
  kind : LeaseKind
  scope : LeaseScope
  providerClass : ProviderClass
  amount : PyFloat
  unit : String
  hardCap : PyFloat
  expiresAt : PyFloat
  grantedAt : PyFloat
  runId : String
  costSource : Option CostSource
  metadata : Dict Json

def Lease.isExpired (l : Lease) (now : PyFloat) : Bool := PyFloat.le l.expiresAt now

/-- What `json.loads` and `Lease.from_dict` make of a stored value. -/
inductive Stored
  | lease (l : Lease)
  | malformed (detail : String)
  | unparseable (detail : String)

/-- `_partition`: the live leases of a scope hash and the expired ones under their ids. -/
def partition (now : PyFloat) : Dict Stored → Except LeaseError (List Lease × Dict Lease)
  | [] => .ok ([], [])
  | (leaseId, .unparseable detail) :: _ => .error (.unparseable leaseId detail)
  | (_, .malformed detail) :: _ => .error (.malformed detail)
  | (leaseId, .lease l) :: rest => do
    let (live, expired) ← partition now rest
    if l.isExpired now then .ok (live, (leaseId, l) :: expired) else .ok (l :: live, expired)

lemma isExpired_finite {l : Lease} {e : ℚ} (h : l.expiresAt = .finite e) (t : ℚ) :
    l.isExpired (.finite t) = true ↔ e ≤ t := by
  simp [Lease.isExpired, h, PyFloat.le, PyFloat.lt, le_iff_lt_or_eq]

lemma mem_partition {now : PyFloat} {raw : Dict Stored} {live : List Lease} {expired : Dict Lease}
    (h : partition now raw = .ok (live, expired)) :
    (∀ l, l ∈ live ↔ ∃ i, (i, .lease l) ∈ raw ∧ l.isExpired now = false) ∧
      ∀ i l, (i, l) ∈ expired ↔ (i, .lease l) ∈ raw ∧ l.isExpired now = true := by
  induction raw generalizing live expired with
  | nil =>
    simp only [partition, Except.ok.injEq, Prod.mk.injEq] at h
    obtain ⟨rfl, rfl⟩ := h
    simp
  | cons entry raw ih =>
    obtain ⟨i, stored⟩ := entry
    cases stored with
    | malformed detail => simp [partition] at h
    | unparseable detail => simp [partition] at h
    | lease l =>
      simp only [partition] at h
      cases hrest : partition now raw with
      | error e =>
        rw [hrest] at h
        cases h
      | ok rest =>
        obtain ⟨live', expired'⟩ := rest
        obtain ⟨hlive, hexpired⟩ := ih hrest
        rw [hrest] at h
        simp only [bind, Except.bind] at h
        split at h
        · rename_i hexp
          cases h
          constructor
          · intro l'
            rw [hlive]
            grind
          · intro i' l'
            rw [List.mem_cons, hexpired]
            grind
        · rename_i hexp
          cases h
          constructor
          · intro l'
            rw [List.mem_cons, hlive]
            grind
          · intro i' l'
            rw [hexpired]
            grind

/-- `sum(lease.amount for lease in live)`. -/
def outstanding (live : List Lease) : PyFloat := PyFloat.sum (live.map Lease.amount)

/-- `_EPSILON`, the double nearest to a billionth. -/
def epsilon : ℚ := 4835703278458517 / 2 ^ 82

/-- The lifetime of the registry's own keys. -/
def keyTtlSeconds : ℕ := 7 * 24 * 3600

/-! ### Keys -/

def scopeKey (ns : String) (kind : LeaseKind) (scope : LeaseScope) : String :=
  ns ++ ":" ++ kind.value ++ ":" ++ scope.token

def capKey (ns : String) (kind : LeaseKind) (scope : LeaseScope) : String :=
  ns ++ ":cap:" ++ kind.value ++ ":" ++ scope.token

/-- `kind.value[:3]`. -/
def LeaseKind.tag (kind : LeaseKind) : String := String.ofList (kind.value.toList.take 3)

/-- The id of a lease whose random part is `token`. -/
def leaseIdOf (kind : LeaseKind) (token : String) : String := kind.tag ++ "_" ++ token

/-! ### Reservations -/

/-- The arguments of `_reserve`. -/
structure Reservation where
  kind : LeaseKind
  scope : LeaseScope
  providerClass : ProviderClass
  amount : Amount
  unit : String
  hardCap : Amount
  runId : String
  costSource : Option CostSource
  ttlSeconds : ℤ
  metadata : Dict Json

namespace Reservation

/-- The checks `_reserve` makes before it turns to Redis. -/
def check (r : Reservation) : Except LeaseError Unit :=
  if strip r.runId = "" then .error (.blankRunId r.runId)
  else if r.ttlSeconds ≤ 0 then .error (.ttlNotPositive r.ttlSeconds)
  else .ok ()

/-- `outstanding + amount > hard_cap + _EPSILON` is false. -/
def fits (r : Reservation) (live : List Lease) : Bool :=
  !PyFloat.lt (.add (.finite r.hardCap.value) (.finite epsilon))
    (.add (outstanding live) (.finite r.amount.value))

lemma cap_add_epsilon (r : Reservation) : PyFloat.add (.finite r.hardCap.value) (.finite epsilon) =
    .finite (r.hardCap.value + epsilon) := by
  have hpos := r.hardCap.pos
  have hrange := r.hardCap.inRange
  have habs : ¬ floatLimit ≤ |r.hardCap.value + epsilon| := by
    rw [abs_of_nonneg (by simp only [epsilon]; positivity), not_le]
    have hgap : floatMax + epsilon < floatLimit := floatMax_add_lt (by norm_num [epsilon])
    linarith
  simp [PyFloat.add, PyFloat.ofRat, habs]

lemma sum_le_of_fits {r : Reservation} {live : List Lease} (h : r.fits live = true)
    (hlive : ∀ l ∈ live, l.amount.isFinite ∧ 0 ≤ l.amount.toRat) :
    (live.map fun l => l.amount.toRat).sum + r.amount.value ≤ r.hardCap.value + epsilon := by
  have hle : PyFloat.lt (.finite (r.hardCap.value + epsilon))
      (.add (PyFloat.sum (live.map Lease.amount)) (.finite r.amount.value)) = false := by
    simpa [fits, outstanding, cap_add_epsilon] using h
  have hsum := PyFloat.sum_add_le (by simpa using hlive) r.amount.pos.le hle
  simpa [Function.comp_def] using hsum

lemma fits_nil {r : Reservation} (h : r.amount.value ≤ r.hardCap.value + epsilon) :
    r.fits [] = true := by
  have habs : ¬ floatLimit ≤ |r.amount.value| := by
    rw [abs_of_pos r.amount.pos, not_le]
    have hgap : floatMax + 0 < floatLimit := floatMax_add_lt (by norm_num)
    linarith [r.amount.inRange]
  have hadd : PyFloat.add (.finite 0) (.finite r.amount.value) = .finite r.amount.value := by
    simp [PyFloat.add, PyFloat.ofRat, habs]
  simp [fits, outstanding, PyFloat.sum, cap_add_epsilon, hadd, PyFloat.lt, h]

lemma fits_nil_of_fits {r : Reservation} {live : List Lease} (h : r.fits live = true)
    (hlive : ∀ l ∈ live, l.amount.isFinite ∧ 0 ≤ l.amount.toRat) : r.fits [] = true := by
  have hsum : 0 ≤ (live.map fun l => l.amount.toRat).sum := by
    refine List.sum_nonneg ?_
    intro q hq
    obtain ⟨l, hl, rfl⟩ := List.mem_map.mp hq
    exact (hlive l hl).2
  apply fits_nil
  linarith [sum_le_of_fits h hlive]

def denial (r : Reservation) (live : List Lease) : LeaseError :=
  .capExceeded r.kind r.runId r.scope r.amount.value r.unit (outstanding live) r.hardCap.value
    live.length

/-- The lease to be written; none when `now + ttl_seconds` overflows. -/
def lease? (r : Reservation) (token : String) (now : PyFloat) : Option Lease := do
  let ttl ← floatOfInt r.ttlSeconds
  some
    { leaseId := leaseIdOf r.kind token
      kind := r.kind
      scope := r.scope
      providerClass := r.providerClass
      amount := .finite r.amount.value
      unit := r.unit
      hardCap := .finite r.hardCap.value
      expiresAt := .add now (.finite ttl)
      grantedAt := now
      runId := r.runId
      costSource := r.costSource
      metadata := r.metadata }

lemma lease?_eq_some {r : Reservation} {token : String} {now : PyFloat} {l : Lease}
    (h : r.lease? token now = some l) : ∃ ttl, floatOfInt r.ttlSeconds = some ttl ∧ l =
      { leaseId := leaseIdOf r.kind token
        kind := r.kind
        scope := r.scope
        providerClass := r.providerClass
        amount := .finite r.amount.value
        unit := r.unit
        hardCap := .finite r.hardCap.value
        expiresAt := .add now (.finite ttl)
        grantedAt := now
        runId := r.runId
        costSource := r.costSource
        metadata := r.metadata } := by
  simp only [lease?, Option.bind_eq_some_iff, bind, Option.some.injEq] at h
  obtain ⟨ttl, httl, rfl⟩ := h
  exact ⟨ttl, httl, rfl⟩

lemma lease?_fields {r : Reservation} {token : String} {now : PyFloat} {l : Lease}
    (h : r.lease? token now = some l) :
    l.kind = r.kind ∧ l.scope = r.scope ∧ l.leaseId = leaseIdOf r.kind token := by
  obtain ⟨ttl, -, rfl⟩ := lease?_eq_some h
  exact ⟨rfl, rfl, rfl⟩

lemma lease?_terms {r : Reservation} {token : String} {now : PyFloat} {l : Lease}
    (h : r.lease? token now = some l) :
    l.amount = .finite r.amount.value ∧ l.unit = r.unit ∧ l.providerClass = r.providerClass := by
  obtain ⟨ttl, -, rfl⟩ := lease?_eq_some h
  exact ⟨rfl, rfl, rfl⟩

end Reservation

/-! ### What the transactions write -/

/-- The scope hash after a grant: the expired members pruned, the new lease added. -/
def grantScope (expired : Dict Lease) (l : Lease) (hash : Dict Stored) : Dict Stored :=
  Dict.set l.leaseId (.lease l) (Dict.eraseAll (expired.map Prod.fst) hash)

def grantIndex (expired : Dict Lease) (l : Lease) (key : String) (index : Dict String) :
    Dict String :=
  Dict.set l.leaseId key (Dict.eraseAll (expired.map Prod.fst) index)

section Grant

variable {expired : Dict Lease} {l : Lease}

lemma grantScope_eq {hash : Dict Stored} (hnew : ∀ e ∈ hash, e.1 ≠ l.leaseId) :
    grantScope expired l hash =
      Dict.eraseAll (expired.map Prod.fst) hash ++ [(l.leaseId, .lease l)] :=
  Dict.set_of_new (fun e he => hnew e (Dict.mem_eraseAll.mp he).1) _

lemma grantIndex_eq {key : String} {index : Dict String} (hnew : ∀ e ∈ index, e.1 ≠ l.leaseId) :
    grantIndex expired l key index =
      Dict.eraseAll (expired.map Prod.fst) index ++ [(l.leaseId, key)] :=
  Dict.set_of_new (fun e he => hnew e (Dict.mem_eraseAll.mp he).1) _

lemma mem_grantScope {hash : Dict Stored} (hnew : ∀ e ∈ hash, e.1 ≠ l.leaseId)
    {e : String × Stored} : e ∈ grantScope expired l hash ↔
      e ∈ hash ∧ e.1 ∉ expired.map Prod.fst ∨ e = (l.leaseId, .lease l) := by
  simp only [grantScope_eq hnew, List.mem_append, Dict.mem_eraseAll, List.mem_singleton]

lemma mem_grantIndex {key : String} {index : Dict String}
    (hnew : ∀ e ∈ index, e.1 ≠ l.leaseId) {e : String × String} :
    e ∈ grantIndex expired l key index ↔
      e ∈ index ∧ e.1 ∉ expired.map Prod.fst ∨ e = (l.leaseId, key) := by
  simp only [grantIndex_eq hnew, List.mem_append, Dict.mem_eraseAll, List.mem_singleton]

end Grant

/-! ### Ids and instants -/

lemma leaseIdOf_injective {k k' : LeaseKind} {a b : String} (h : leaseIdOf k a = leaseIdOf k' b) :
    a = b := by
  simp only [leaseIdOf] at h
  have hlist := congrArg String.toList h
  cases k <;> cases k' <;> simp [LeaseKind.tag, LeaseKind.value] at hlist <;>
    exact String.toList_inj.mp (by simpa using hlist)

lemma Lease.expired_mono {l : Lease} {t u : ℚ} (htu : t ≤ u)
    (h : l.isExpired (.finite t) = true) : l.isExpired (.finite u) = true := by
  cases he : l.expiresAt with
  | finite e =>
    rw [isExpired_finite he] at h ⊢
    exact h.trans htu
  | inf negative => simpa [isExpired, he, PyFloat.le, PyFloat.lt] using h
  | nan => simp [isExpired, he, PyFloat.le, PyFloat.lt] at h

end AgenticDynamics.Control
