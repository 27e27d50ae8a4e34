import AgenticDynamics.Library.Optimistic
import AgenticDynamics.Control.LeaseRegistry

/-!
# Clients of one lease registry

Any number of clients reserve, release and sweep against one Redis. Every command a client sends
is a step of its own, so other clients may run between any two of them; a transaction is one step,
which happens only if no watched key was written since it was watched. Redis itself may drop a
scope hash or the index once the lifetime set on the key is over, counting that as a write or not.

Three fields of the store are history that no client reads: the random parts handed out so far,
the leases granted, and the ids released.
-/

namespace AgenticDynamics.Control

open Python Optimistic

/-! ### The store -/

/-- A reading of the clock, from which a key lifetime can still be counted. -/
structure Reading where
  seconds : ℚ
  nonneg : 0 ≤ seconds
  bounded : seconds + keyTtlSeconds < floatLimit

def Reading.float (t : Reading) : PyFloat := .finite t.seconds

def epoch : Reading := ⟨0, le_rfl, by decide +kernel⟩

/-- A granted lease and the key of the scope hash it was written to. -/
structure Grant where
  key : String
  lease : Lease

structure Store where
  clock : Reading
  scopes : String → Cell (Dict Stored)
  index : Cell (Dict String)
  scopeDeadline : String → ℚ
  indexDeadline : ℚ
  drawn : List String
  granted : List Grant
  released : List String

/-- `HDEL`, which counts as a write only when it deletes something. -/
def hdel {α : Type} (ids : List String) (c : Cell (Dict α)) : Cell (Dict α) :=
  if ids.any (fun i => (Dict.get? i c.value).isSome) then c.write (Dict.eraseAll ids c.value)
  else c

namespace Store

def initial (start : Reading) : Store where
  clock := start
  scopes _ := ⟨[], 0⟩
  index := ⟨[], 0⟩
  scopeDeadline _ := 0
  indexDeadline := 0
  drawn := []
  granted := []
  released := []

def grant (s : Store) (key : String) (expired : Dict Lease) (l : Lease) : Store :=
  { s with
    scopes := Function.update s.scopes key
      ((s.scopes key).write (grantScope expired l (s.scopes key).value))
    index := s.index.write (grantIndex expired l key s.index.value)
    scopeDeadline := Function.update s.scopeDeadline key (s.clock.seconds + keyTtlSeconds)
    indexDeadline := s.clock.seconds + keyTtlSeconds
    granted := ⟨key, l⟩ :: s.granted }

/-- The transaction of a release or a sweep. -/
def delete (s : Store) (key : String) (ids : List String) : Store :=
  { s with
    scopes := Function.update s.scopes key (hdel ids (s.scopes key))
    index := hdel ids s.index }

def evictScope (s : Store) (key : String) (counted : Bool) : Store :=
  { s with
    scopes := Function.update s.scopes key
      (if counted then (s.scopes key).write [] else (s.scopes key).lose []) }

def evictIndex (s : Store) (counted : Bool) : Store :=
  { s with index := if counted then s.index.write [] else s.index.lose [] }

/-- A lease that is neither released nor expired. -/
def Live (s : Store) (g : Grant) : Prop :=
  g.lease.leaseId ∉ s.released ∧ g.lease.isExpired s.clock.float = false

instance (s : Store) (g : Grant) : Decidable (s.Live g) := inferInstanceAs (Decidable (_ ∧ _))

def liveGrants (s : Store) (key : String) : List Grant :=
  s.granted.filter fun g => g.key = key ∧ s.Live g

/-- What the live leases of a scope add up to. -/
def liveAmount (s : Store) (key : String) : ℚ :=
  ((s.liveGrants key).map fun g => g.lease.amount.toRat).sum

end Store

/-! ### Clients -/

/-- What an attempt under watched keys is for. -/
inductive Goal
  | reserve (r : Reservation)
  | sweep (key : String) (rest : List String)

def Goal.key (ns : String) : Goal → String
  | reserve r   => scopeKey ns r.kind r.scope
  | sweep key _ => key

/-- The attempts left and the versions of the two watched keys. -/
structure Watched where
  tries : ℕ
  scope : ℕ
  index : ℕ

inductive Client
  | idle
  | starting (goal : Goal) (tries : ℕ)
  | watching (goal : Goal) (w : Watched)
  | fetched (goal : Goal) (w : Watched) (raw : Dict Stored)
  | counted (r : Reservation) (w : Watched) (live : List Lease) (expired : Dict Lease)
  | granting (r : Reservation) (w : Watched) (expired : Dict Lease) (l : Lease)
  | pruning (key : String) (rest : List String) (w : Watched) (expired : Dict Lease)
  | releasing (leaseId : String) (tries : ℕ)
  | locating (leaseId : String) (tries index : ℕ)
  | located (leaseId : String) (tries index : ℕ) (key : String)
  | removing (leaseId : String) (key : String) (w : Watched)

/-- The attempt lost the race: try again, or give up after the last try. -/
def Client.retry (goal : Goal) (tries : ℕ) : Client :=
  if tries ≤ 1 then .idle else .starting goal (tries - 1)

def Client.sweeping (tries : ℕ) : List String → Client
  | []          => .idle
  | key :: rest => .starting (.sweep key rest) tries

/-- `sorted` of a set of keys. -/
def sortedSet (keys : List String) : List String := keys.dedup.mergeSort (· ≤ ·)

inductive Event
  | internal
  | counted (key : String) (live : List Lease)
  | refused (e : LeaseError)
  | granted (r : Reservation) (l : Lease)
  | released (leaseId : String)
  | swept (expired : Dict Lease)

/-- The two watched keys are as they were. -/
def Store.Unwritten (s : Store) (key : String) (w : Watched) : Prop :=
  (s.scopes key).version = w.scope ∧ s.index.version = w.index

inductive ClientStep (ns : String) : Store → Client → Event → Store → Client → Prop
  | reserve {s} (r : Reservation) (tries : ℕ) (hcheck : r.check = .ok ())
      (httl : r.ttlSeconds ≤ keyTtlSeconds) :
      ClientStep ns s .idle .internal s (.starting (.reserve r) tries)
  | release {s} (leaseId : String) (tries : ℕ) (hid : strip leaseId ≠ "") :
      ClientStep ns s .idle .internal s (.releasing leaseId tries)
  | expireAll {s} (tries : ℕ) :
      ClientStep ns s .idle .internal s
        (.sweeping tries (sortedSet (s.index.value.map Prod.snd)))
  | expireScopes {s} (tries : ℕ) (scopes : List (LeaseKind × LeaseScope)) :
      ClientStep ns s .idle .internal s
        (.sweeping tries (sortedSet (scopes.map fun (kind, scope) => scopeKey ns kind scope)))
  | watch {s} (goal : Goal) (tries : ℕ) :
      ClientStep ns s (.starting goal tries) .internal s
        (.watching goal ⟨tries, (s.scopes (goal.key ns)).version, s.index.version⟩)
  | fetch {s} (goal : Goal) (w : Watched) :
      ClientStep ns s (.watching goal w) .internal s
        (.fetched goal w (s.scopes (goal.key ns)).value)
  | corrupt {s} (goal : Goal) (w : Watched) (raw : Dict Stored) (e : LeaseError)
      (hpart : partition s.clock.float raw = .error e) :
      ClientStep ns s (.fetched goal w raw) (.refused e) s .idle
  | count {s} (r : Reservation) (w : Watched) (raw : Dict Stored) (live : List Lease)
      (expired : Dict Lease) (hpart : partition s.clock.float raw = .ok (live, expired)) :
      ClientStep ns s (.fetched (.reserve r) w raw) (.counted (scopeKey ns r.kind r.scope) live) s
        (.counted r w live expired)
  | deny {s} (r : Reservation) (w : Watched) (live : List Lease) (expired : Dict Lease)
      (hfits : r.fits live = false) :
      ClientStep ns s (.counted r w live expired) (.refused (r.denial live)) s .idle
  | draw {s} (r : Reservation) (w : Watched) (live : List Lease) (expired : Dict Lease)
      (token : String) (l : Lease) (hfits : r.fits live = true) (hnew : token ∉ s.drawn)
      (hlease : r.lease? token s.clock.float = some l) :
      ClientStep ns s (.counted r w live expired) .internal { s with drawn := token :: s.drawn }
        (.granting r w expired l)
  | grant {s} (r : Reservation) (w : Watched) (expired : Dict Lease) (l : Lease)
      (hexec : s.Unwritten (scopeKey ns r.kind r.scope) w) :
      ClientStep ns s (.granting r w expired l) (.granted r l)
        (s.grant (scopeKey ns r.kind r.scope) expired l) .idle
  | grantLost {s} (r : Reservation) (w : Watched) (expired : Dict Lease) (l : Lease)
      (hexec : ¬ s.Unwritten (scopeKey ns r.kind r.scope) w) :
      ClientStep ns s (.granting r w expired l) .internal s (.retry (.reserve r) w.tries)
  | nothingExpired {s} (key : String) (rest : List String) (w : Watched) (raw : Dict Stored)
      (live : List Lease) (hpart : partition s.clock.float raw = .ok (live, [])) :
      ClientStep ns s (.fetched (.sweep key rest) w raw) .internal s (.sweeping w.tries rest)
  | someExpired {s} (key : String) (rest : List String) (w : Watched) (raw : Dict Stored)
      (live : List Lease) (expired : Dict Lease) (hsome : expired ≠ [])
      (hpart : partition s.clock.float raw = .ok (live, expired)) :
      ClientStep ns s (.fetched (.sweep key rest) w raw) .internal s (.pruning key rest w expired)
  | prune {s} (key : String) (rest : List String) (w : Watched) (expired : Dict Lease)
      (hexec : s.Unwritten key w) :
      ClientStep ns s (.pruning key rest w expired) (.swept expired)
        (s.delete key (expired.map Prod.fst)) (.sweeping w.tries rest)
  | pruneLost {s} (key : String) (rest : List String) (w : Watched) (expired : Dict Lease)
      (hexec : ¬ s.Unwritten key w) :
      ClientStep ns s (.pruning key rest w expired) .internal s (.retry (.sweep key rest) w.tries)
  | locate {s} (leaseId : String) (tries : ℕ) :
      ClientStep ns s (.releasing leaseId tries) .internal s
        (.locating leaseId tries s.index.version)
  | unknown {s} (leaseId : String) (tries index : ℕ)
      (hget : Dict.get? leaseId s.index.value = none) :
      ClientStep ns s (.locating leaseId tries index) .internal s .idle
  | found {s} (leaseId : String) (tries index : ℕ) (key : String)
      (hget : Dict.get? leaseId s.index.value = some key) :
      ClientStep ns s (.locating leaseId tries index) .internal s
        (.located leaseId tries index key)
  | watchScope {s} (leaseId : String) (tries index : ℕ) (key : String) :
      ClientStep ns s (.located leaseId tries index key) .internal s
        (.removing leaseId key ⟨tries, (s.scopes key).version, index⟩)
  | remove {s} (leaseId key : String) (w : Watched) (hexec : s.Unwritten key w) :
      ClientStep ns s (.removing leaseId key w) (.released leaseId)
        { s.delete key [leaseId] with released := leaseId :: s.released } .idle
  | removeLost {s} (leaseId key : String) (w : Watched) (hexec : ¬ s.Unwritten key w) :
      ClientStep ns s (.removing leaseId key w) .internal s
        (if w.tries ≤ 1 then .idle else .releasing leaseId (w.tries - 1))
  -- a connection error, or the process dies
  | abandon {s c} : ClientStep ns s c .internal s .idle

/-! ### The system -/

inductive StoreStep : Store → Store → Prop
  | tick {s} (now : Reading) (hle : s.clock.seconds ≤ now.seconds) :
      StoreStep s { s with clock := now }
  | evictScope {s} (key : String) (counted : Bool)
      (hdue : s.scopeDeadline key ≤ s.clock.seconds) : StoreStep s (s.evictScope key counted)
  | evictIndex {s} (counted : Bool) (hdue : s.indexDeadline ≤ s.clock.seconds) :
      StoreStep s (s.evictIndex counted)

structure Net where
  store : Store
  clients : ℕ → Client

inductive Net.Step (ns : String) : Net → Event → Net → Prop
  | client {n e s c} (i : ℕ) (hstep : ClientStep ns n.store (n.clients i) e s c) :
      Net.Step ns n e ⟨s, Function.update n.clients i c⟩
  | store {n s} (hstep : StoreStep n.store s) : Net.Step ns n .internal ⟨s, n.clients⟩

/-- Every interleaving of any calls, from an empty registry. -/
inductive Net.Reachable (ns : String) : Net → Prop
  | start (t : Reading) : Net.Reachable ns ⟨Store.initial t, fun _ => .idle⟩
  | step {n e n'} (h : Net.Reachable ns n) (hstep : Net.Step ns n e n') : Net.Reachable ns n'

end AgenticDynamics.Control
