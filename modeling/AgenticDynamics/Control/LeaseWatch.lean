import AgenticDynamics.Control.LeaseClients
import AgenticDynamics.Control.Quarantine

/-!
# The watchdog of expired leases

A sweep of the registry takes the expired leases out, one scope after the other, and the watchdog
reports what the sweep returns. Grants take expired leases out of their scope too, releases take out
what they are asked for, and Redis drops a scope hash or the index when its time is over; none of
these reports.
-/

namespace AgenticDynamics.Control.Watchdog

open Python Quarantine

/-! ### What is observed -/

/-- The texts that Python makes of a number of seconds and of an instant. -/
structure Formats where
  host : Runtime
  /-- `f"{seconds:.0f}"`. -/
  whole : PyFloat → String
  iso : PyFloat → String

/-- `LeaseObservation`; the kind, the provider class and the scope stand for their texts. -/
structure LeaseObservation where
  leaseId : String
  kind : LeaseKind
  scope : LeaseScope
  runId : String
  model : String
  providerClass : ProviderClass
  amount : PyFloat
  unit : String
  expiresAt : PyFloat
  overdueSeconds : PyFloat
  worktreeIdentity : String
  resultNamespace : String

def LeaseObservation.attributable (o : LeaseObservation) : Bool :=
  o.worktreeIdentity ≠ "" ∨ o.resultNamespace ≠ ""

section Observe

variable (f : Formats)

/-- `str(metadata.get(key) or "")`. -/
def metadataText (key : String) (l : Lease) : String :=
  (Json.orElse (Dict.get? key l.metadata) (.str "")).text f.host

def worktreeOf (l : Lease) : String := strip (metadataText f "worktree_identity" l)

def namespaceOf (l : Lease) : String := strip (metadataText f "result_namespace" l)

/-- `max(0.0, now - expires_at)`. -/
def overdue (now expiresAt : PyFloat) : PyFloat :=
  let late := match expiresAt with
    | .finite e   => PyFloat.add now (.finite (-e))
    | .inf sign   => PyFloat.add now (.inf (!sign))
    | .nan        => .nan
  if PyFloat.lt (.finite 0) late then late else .finite 0

def observe (l : Lease) (now : PyFloat) : LeaseObservation where
  leaseId := l.leaseId
  kind := l.kind
  scope := l.scope
  runId := l.runId
  model := metadataText f "model" l
  providerClass := l.providerClass
  amount := l.amount
  unit := l.unit
  expiresAt := l.expiresAt
  overdueSeconds := overdue now l.expiresAt
  worktreeIdentity := worktreeOf f l
  resultNamespace := namespaceOf f l

end Observe

/-- An advisory flag, without its stamp and its sentence. -/
structure Flag where
  sessionId : String
  title : String
  model : String
  status : String
  lease : LeaseObservation

/-- `build_flag`; none stands for a flag that `normalize_flag` rejects. -/
def buildFlag (o : LeaseObservation) : Option Flag :=
  let flag : Flag :=
    { sessionId := if o.runId = "" then "lease:" ++ o.leaseId else o.runId
      title := String.ofList (("lease " ++ o.leaseId ++ " (" ++ o.scope.token ++ ")").toList.take 80)
      model := if o.model = "" then "?" else o.model
      status := if o.kind = .budget then "lease_expired_budget" else "lease_expired_concurrency"
      lease := o }
  if strip flag.sessionId = "" ∨ strip flag.status = "" then none else some flag

/-! ### What is quarantined -/

def providerText : ProviderClass → String
  | .perToken     => "per_token"
  | .subscription => "subscription"

/-- What the files and Redis let the watchdog do while it reports. -/
structure Outcome where
  /-- The flag of the lease is persisted. -/
  persists : String → Bool := fun _ => true
  /-- The ledger refuses to be written. -/
  raises : QuarantineKind → String → Bool := fun _ _ => false
  now : ℚ := 0
  reads : Bool := true
  writes : Bool := true

section Marks

variable (f : Formats) (outcome : Outcome)

def LeaseObservation.why (o : LeaseObservation) : String :=
  "budget lease " ++ o.leaseId ++ " on " ++ o.scope.token ++ " expired " ++
    f.whole o.overdueSeconds ++ "s before this sweep while run " ++ f.host.repr (.str o.runId) ++
    " was still live: output produced after " ++ f.iso o.expiresAt ++ " is unaccounted-for."

/-- The call of the quarantine registry for one surface of a lease. -/
def quarantineCall (o : LeaseObservation) (kind : QuarantineKind) (identity : String) : Call where
  party := .host
  kind
  identity
  request := .quarantine .budgetLeaseExpired (o.why f) "lease_watchdog" o.runId [o.leaseId] none
    [("scope", .str o.scope.token), ("model", .str o.model),
      ("provider_class", .str (providerText o.providerClass)),
      ("reserved_amount", .float o.amount), ("unit", .str o.unit),
      ("expires_at", .float o.expiresAt), ("overdue_seconds", .float o.overdueSeconds)]
  now := outcome.now
  reads := outcome.reads
  writes := outcome.writes

/-- One round of the loop of `_quarantine_observation`. -/
def markSurface (o : LeaseObservation) (s : Surfaces) (target : QuarantineKind × String) :
    Surfaces :=
  if target.2 = "" ∨ outcome.raises target.1 target.2 then s
  else
    match s.apply (quarantineCall f outcome o target.1 target.2) with
    | .ok t    => t
    | .error _ => s

def quarantineObservation (o : LeaseObservation) (s : Surfaces) : Surfaces :=
  [(.worktree, o.worktreeIdentity), (.resultNamespace, o.resultNamespace)].foldl
    (markSurface f outcome o) s

end Marks

/-! ### The system -/

/-- An observation of a sweep, with the flag that was persisted for it. -/
structure Report where
  sweep : ℕ
  observation : LeaseObservation
  flag : Option Flag

/-- A pass of the watchdog before it reports. -/
structure Sweep where
  start : Reading
  todo : List String
  reclaimed : List Lease

/-- The registry, the passes of the watchdog and what has come of them. -/
structure Watch where
  store : Store
  sweeps : ℕ → Option Sweep := fun _ => none
  /-- When each released lease was released. -/
  releases : List (String × Reading) := []
  reports : List Report := []
  surfaces : Surfaces := {}
  /-- The starts of the passes that are over, failed ones included. -/
  finished : List Reading := []

inductive WatchEvent
  | tick (now : Reading)
  | evictScope (key : String)
  | evictIndex
  /-- A grant: the scope is partitioned at one reading of the clock, the lease dated by another. -/
  | reserve (r : Reservation) (token : String) (readAt now : Reading)
  | release (leaseId : String)
  | begin (sweep : ℕ)
  /-- A pass sweeps its next scope. -/
  | prune (sweep : ℕ) (readAt : Reading)
  /-- A scope of a pass cannot be swept. -/
  | fail (sweep : ℕ)
  | report (sweep : ℕ) (outcome : Outcome)

section Steps

variable (ns : String) (f : Formats)

/-- The transaction of `_reserve`. -/
def Watch.reserve (r : Reservation) (token : String) (readAt now : Reading) (s : Watch) : Watch :=
  let key := scopeKey ns r.kind r.scope
  match r.check, partition readAt.float (s.store.scopes key).value, r.lease? token now.float with
  | .ok (), .ok (live, expired), some l =>
    if r.fits live then
      { s with store := { s.store.grant key expired l with drawn := token :: s.store.drawn } }
    else s
  | _, _, _ => s

def Watch.reportLease (sweep : ℕ) (start : Reading) (outcome : Outcome) (s : Watch) (l : Lease) :
    Watch :=
  let o := observe f l start.float
  { s with
    reports := s.reports ++
      [⟨sweep, o, if outcome.persists l.leaseId then buildFlag o else none⟩]
    surfaces := if l.kind = .budget ∧ o.attributable then
      quarantineObservation f outcome o s.surfaces else s.surfaces }

/-- `sorted` by `expires_at`. -/
def sortedLeases (leases : List Lease) : List Lease :=
  leases.mergeSort fun l l' => !PyFloat.lt l'.expiresAt l.expiresAt

/-- One step; a step that cannot be taken changes nothing. The transactions of the registry are
single steps, since they happen only if what they watch was not written. -/
def Watch.step (s : Watch) : WatchEvent → Watch
  | .tick now =>
    if s.store.clock.seconds ≤ now.seconds then { s with store := { s.store with clock := now } }
    else s
  | .evictScope key =>
    if s.store.scopeDeadline key ≤ s.store.clock.seconds then
      { s with store := s.store.evictScope key true }
    else s
  | .evictIndex =>
    if s.store.indexDeadline ≤ s.store.clock.seconds then { s with store := s.store.evictIndex true }
    else s
  | .reserve r token readAt now =>
    if token ∉ s.store.drawn ∧ readAt.seconds ≤ now.seconds ∧
        now.seconds ≤ s.store.clock.seconds then
      s.reserve ns r token readAt now
    else s
  | .release leaseId =>
    match Dict.get? leaseId s.store.index.value with
    | some key =>
      { s with
        store := { s.store.delete key [leaseId] with released := leaseId :: s.store.released }
        releases := (leaseId, s.store.clock) :: s.releases }
    | none => s
  | .begin sweep =>
    match s.sweeps sweep with
    | some _ => s
    | none =>
      { s with
        sweeps := Function.update s.sweeps sweep
          (some ⟨s.store.clock, sortedSet (s.store.index.value.map Prod.snd), []⟩) }
  | .prune sweep readAt =>
    match s.sweeps sweep with
    | some ⟨start, key :: rest, reclaimed⟩ =>
      if start.seconds ≤ readAt.seconds ∧ readAt.seconds ≤ s.store.clock.seconds then
        match partition readAt.float (s.store.scopes key).value with
        | .ok (_, expired) =>
          { s with
            store := s.store.delete key (expired.map Prod.fst)
            sweeps := Function.update s.sweeps sweep
              (some ⟨start, rest, reclaimed ++ expired.map Prod.snd⟩) }
        | .error _ => s
      else s
    | _ => s
  | .fail sweep =>
    match s.sweeps sweep with
    | some ⟨start, _ :: _, _⟩ =>
      { s with
        sweeps := Function.update s.sweeps sweep none
        finished := start :: s.finished }
    | _ => s
  | .report sweep outcome =>
    match s.sweeps sweep with
    | some ⟨start, [], reclaimed⟩ =>
      (sortedLeases reclaimed).foldl (Watch.reportLease f sweep start outcome)
        { s with
          sweeps := Function.update s.sweeps sweep none
          finished := start :: s.finished }
    | _ => s

end Steps

/-! ### What the watchdog promises -/

section Promise

variable (ns : String) (f : Formats)

/-- The lease was not released before it expired. -/
def Watch.Overrun (s : Watch) (l : Lease) : Prop :=
  ∀ kv ∈ s.releases, kv.1 = l.leaseId → l.isExpired kv.2.float = true

/-- The host takes the surface for contaminated, where the lease names one. -/
def Watch.Marked (s : Watch) (kind : QuarantineKind) (identity : String) : Prop :=
  identity = "" ∨ s.surfaces.isQuarantined .host true kind identity = true

/-- The lease is reported with a flag, and its worktree and namespace are quarantined. -/
def Watch.Reported (s : Watch) (l : Lease) : Prop :=
  (∃ r ∈ s.reports, r.observation.leaseId = l.leaseId ∧ r.flag.isSome) ∧
    s.Marked .worktree (worktreeOf f l) ∧ s.Marked .resultNamespace (namespaceOf f l)

/-- No lease is reported twice, and a budget lease that expired unreleased is reported once a pass
is over that started after the expiry. -/
def Watch.Seen (s : Watch) : Prop :=
  (s.reports.map fun r => r.observation.leaseId).Nodup ∧
    ∀ g ∈ s.store.granted, g.lease.kind = .budget → s.Overrun g.lease →
      ∀ start ∈ s.finished, g.lease.isExpired start.float = true → s.Reported f g.lease

def Watch.NoBudget (s : Watch) (key : String) : Prop :=
  ∀ kv ∈ (s.store.scopes key).value, ∀ l, kv.2 = .lease l → l.kind ≠ .budget

/-- No other pass has reclaimed a budget lease that had expired when this one started. -/
def Watch.Alone (s : Watch) (sweep : ℕ) (start : Reading) : Prop :=
  ∀ i other, i ≠ sweep → s.sweeps i = some other → ∀ l ∈ other.reclaimed, l.kind = .budget →
    l.isExpired start.float = false

/-- The step takes no expired budget lease out of sight. -/
def InSight (s : Watch) : WatchEvent → Prop
  | .evictScope key => s.NoBudget key
  | .evictIndex => ∀ key, s.NoBudget key
  | .reserve r token readAt now =>
    (∀ kv ∈ (s.store.scopes (scopeKey ns r.kind r.scope)).value, ∀ l, kv.2 = .lease l →
      l.kind = .budget → l.isExpired readAt.float = false) ∧
    (r.kind = .budget → ∀ l, r.lease? token now.float = some l →
      l.isExpired s.store.clock.float = false)
  | .release leaseId =>
    ∀ key, ∀ kv ∈ (s.store.scopes key).value, kv.1 = leaseId → ∀ l, kv.2 = .lease l →
      l.kind = .budget → l.isExpired s.store.clock.float = false
  | .fail sweep =>
    ∀ start todo reclaimed, s.sweeps sweep = some ⟨start, todo, reclaimed⟩ →
      s.Alone sweep start ∧ (∀ l ∈ reclaimed, l.kind ≠ .budget) ∧
        ∀ key, ∀ kv ∈ (s.store.scopes key).value, ∀ l, kv.2 = .lease l → l.kind = .budget →
          l.isExpired start.float = false
  | .report sweep outcome =>
    ∀ start todo reclaimed, s.sweeps sweep = some ⟨start, todo, reclaimed⟩ →
      s.Alone sweep start ∧ ∀ l ∈ reclaimed, l.kind = .budget →
        outcome.persists l.leaseId = true ∧
          outcome.raises .worktree (worktreeOf f l) = false ∧
          outcome.raises .resultNamespace (namespaceOf f l) = false
  | _ => True

end Promise

end AgenticDynamics.Control.Watchdog
