import AgenticDynamics.Control.OpenRegistry

/-!
# How long a lease holds its capacity

A lease ends at its own expiry, and the hash it is written to ends a fixed time after the last
grant in its scope. Nothing relates the two: a lease is counted for as long as the hash is there.
-/

namespace AgenticDynamics.Control

open Python Optimistic

/-! ### Being counted -/

/-- What a reservation would find live in the scope now includes the lease. -/
def Store.Counted (s : Store) (g : Grant) : Prop :=
  ∃ live expired, partition s.clock.float (s.scopes g.key).value = .ok (live, expired) ∧
    g.lease ∈ live

/-- Every lease that is neither released nor expired is counted. -/
def Store.HoldsCapacity (s : Store) : Prop := ∀ g ∈ s.granted, s.Live g → s.Counted g

/-- At that time, the scope hash of every lease that is neither released nor expired by then has
some of its lifetime left. -/
def Store.Steady (s : Store) (now : Reading) : Prop :=
  ∀ g ∈ s.granted, g.lease.leaseId ∉ s.released → g.lease.isExpired now.float = false →
    now.seconds < s.scopeDeadline g.key

/-- The step does not let a scope hash run out under a lease. -/
def Net.Steady (n n' : Net) : Prop := n.store.Steady n'.store.clock

lemma partition_of_grants {granted : List Grant} {key : String} {raw : Dict Stored}
    (hfrom : ∀ entry ∈ raw, FromGrant granted key entry) (now : PyFloat) :
    ∃ live expired, partition now raw = .ok (live, expired) := by
  induction raw with
  | nil => exact ⟨[], [], rfl⟩
  | cons entry raw ih =>
    obtain ⟨live, expired, hrest⟩ := ih fun e he => hfrom e (List.mem_cons_of_mem _ he)
    obtain ⟨g, -, -, -, heq⟩ := hfrom entry (List.mem_cons_self ..)
    obtain ⟨i, stored⟩ := entry
    change stored = .lease g.lease at heq
    subst heq
    by_cases hexp : g.lease.isExpired now
    · exact ⟨live, (i, g.lease) :: expired, by simp [partition, hrest, bind, Except.bind, hexp]⟩
    · exact ⟨g.lease :: live, expired, by simp [partition, hrest, bind, Except.bind, hexp]⟩

lemma counted_of_mem {s : Store} {g : Grant}
    (hfrom : ∀ entry ∈ (s.scopes g.key).value, FromGrant s.granted g.key entry)
    (hmem : (g.lease.leaseId, .lease g.lease) ∈ (s.scopes g.key).value)
    (hexp : g.lease.isExpired s.clock.float = false) : s.Counted g := by
  obtain ⟨live, expired, hpart⟩ := partition_of_grants hfrom s.clock.float
  exact ⟨live, expired, hpart, ((mem_partition hpart).1 g.lease).mpr ⟨_, hmem, hexp⟩⟩

/-- Live leases are in their scope hashes, and the hashes have some of their lifetime left. -/
structure Tenured (s : Store) : Prop where
  present : ∀ g ∈ s.granted, s.Live g →
    (g.lease.leaseId, .lease g.lease) ∈ (s.scopes g.key).value
  within : s.Steady s.clock

section Steps

variable {ns : String} {demand : Set Reservation} {n : Net} {s' : Store} {e : Event} {i : ℕ}
  {c : Client}

lemma OpenOk.not_spent (h : OpenOk ns demand n) {expired : Dict Lease}
    (hspent : Spent n.store expired) {g : Grant} (hg : g ∈ n.store.granted)
    (hlive : n.store.Live g) : g.lease.leaseId ∉ expired.map Prod.fst := by
  intro hin
  obtain ⟨g', hg', hid, hexp⟩ := hspent _ hin
  have hsame := h.ids.eq_of_id hg' hg hid
  subst hsame
  rw [hlive.2] at hexp
  cases hexp

lemma ClientStep.tenured (h : OpenOk ns demand n) (hs : Tenured n.store)
    (hstep : ClientStep ns n.store (n.clients i) e s' c) : Tenured s' := by
  have hc := h.clients i
  have hfresh := h.ids.fresh i
  revert hc hfresh
  generalize n.clients i = client at hstep
  intro hc hfresh
  cases hstep with
  | grant r w expired l hexec =>
    obtain ⟨-, hspent, -⟩ := hc
    have hmem {k : String} {entry : String × Stored} :
        entry ∈ ((n.store.grant (scopeKey ns r.kind r.scope) expired l).scopes k).value ↔ _ :=
      mem_grant_scope (h.history.entries (scopeKey ns r.kind r.scope)) (hfresh _ rfl)
    constructor
    · intro g hg hlive
      rcases List.mem_cons.mp hg with rfl | hg
      · exact hmem.mpr (.inr ⟨rfl, rfl⟩)
      · exact hmem.mpr (.inl ⟨hs.present g hg hlive, fun _ => h.not_spent hspent hg hlive⟩)
    · intro g hg hreleased hexp
      show n.store.clock.seconds < Function.update n.store.scopeDeadline
        (scopeKey ns r.kind r.scope) (n.store.clock.seconds + keyTtlSeconds) g.key
      by_cases hk : g.key = scopeKey ns r.kind r.scope
      · rw [hk, Function.update_self]
        simp [keyTtlSeconds]
      · rw [Function.update_of_ne hk]
        rcases List.mem_cons.mp hg with rfl | hg
        · exact absurd rfl hk
        · exact hs.within g hg hreleased hexp
  | prune key rest w expired hexec =>
    refine ⟨?_, hs.within⟩
    intro g hg hlive
    exact mem_delete_scope.mpr ⟨hs.present g hg hlive, fun _ => h.not_spent hc hg hlive⟩
  | remove leaseId key w hexec =>
    have hunreleased : ∀ g : Grant, g.lease.leaseId ∉ leaseId :: n.store.released →
        g.lease.leaseId ≠ leaseId ∧ g.lease.leaseId ∉ n.store.released := by
      intro g hg
      simpa using hg
    constructor
    · intro g hg hlive
      obtain ⟨hne, hnot⟩ := hunreleased g hlive.1
      have hkept : (g.lease.leaseId, Stored.lease g.lease) ∈
          ((n.store.delete key [leaseId]).scopes g.key).value :=
        mem_delete_scope.mpr ⟨hs.present g hg ⟨hnot, hlive.2⟩, fun _ => by simpa using hne⟩
      exact hkept
    · intro g hg hreleased hexp
      exact hs.within g hg (hunreleased g hreleased).2 hexp
  | draw r w live expired token l hfits hnew hlease => exact ⟨hs.present, hs.within⟩
  | _ => exact hs

lemma StoreStep.tenured (hs : Tenured n.store) (hsteady : n.store.Steady s'.clock)
    (hstep : StoreStep n.store s') : Tenured s' := by
  cases hstep with
  | tick now hle =>
    refine ⟨?_, hsteady⟩
    intro g hg hlive
    exact hs.present g hg ⟨hlive.1, not_expired_of_le hle hlive.2⟩
  | evictIndex counted hdue => exact ⟨hs.present, hs.within⟩
  | evictScope key counted hdue =>
    refine ⟨?_, hs.within⟩
    intro g hg hlive
    have hlt := hs.within g hg hlive.1 hlive.2
    have hk : g.key ≠ key := by
      rintro rfl
      exact absurd hdue (not_le.mpr hlt)
    rw [evictScope_value, if_neg hk]
    exact hs.present g hg hlive

end Steps

section Runs

variable {ns : String} {demand : Set Reservation} {n : Net}

lemma Net.OpenRun.tenured (h : Net.OpenRun ns demand Net.Steady n) : Tenured n.store := by
  induction h with
  | start t =>
    constructor
    · intro g hg
      cases hg
    · intro g hg
      cases hg
  | @step n e n' hrun hstep hsteady ih =>
    have hok := hrun.reachable.ok
    cases hstep with
    | reserve i r tries hidle hdemand hcheck => exact ih
    | client i hstep hcall => exact hstep.tenured hok ih
    | store hstep => exact hstep.tenured ih hsteady

lemma uncounted_of_not_steady {s : Store} {now : Reading} (h : ¬ s.Steady now) :
    ∃ key, s.scopeDeadline key ≤ now.seconds ∧
      ¬ (({ s with clock := now } : Store).evictScope key true).HoldsCapacity := by
  simp only [Store.Steady, not_forall, not_lt] at h
  obtain ⟨g, hg, hreleased, hexp, hdue⟩ := h
  refine ⟨g.key, hdue, ?_⟩
  intro hholds
  obtain ⟨live, expired, hpart, hmem⟩ := hholds g hg ⟨hreleased, hexp⟩
  rw [evictScope_value, if_pos rfl] at hpart
  cases hpart
  cases hmem

/-- Whatever lifetimes the callers ask for and whatever they do, a lease is counted until it is
released or expires as long as no scope hash runs out under one of its leases. Where the clock
passes the end of such a hash, Redis drops it and the lease is not counted any more. -/
theorem leases_hold_capacity (ns : String) (demand : Set Reservation) :
    (∀ n, Net.OpenRun ns demand Net.Steady n → n.store.HoldsCapacity) ∧
      ∀ n now, Net.OpenReachable ns demand n → n.store.clock.seconds ≤ now.seconds →
        ¬ n.store.Steady now → ∃ n' n'', Net.OpenStep ns demand n .internal n' ∧
          n'.store.clock = now ∧ Net.OpenStep ns demand n' .internal n'' ∧
            ¬ n''.store.HoldsCapacity := by
  constructor
  · intro n hrun g hg hlive
    have hok := hrun.reachable.ok
    exact counted_of_mem (hok.history.entries g.key) (hrun.tenured.present g hg hlive) hlive.2
  · intro n now _ hle hsteady
    obtain ⟨key, hdue, hlost⟩ := uncounted_of_not_steady hsteady
    exact ⟨_, _, .store (.tick now hle), rfl, .store (.evictScope key true hdue), hlost⟩

/-! ### A lease longer than a week -/

/-- One slot of a fleet that has one, for a week and a second. -/
def longSlot : Reservation := { oneSlot with ttlSeconds := 604801 }

def weekLater : Reading := ⟨604800, by norm_num, by decide +kernel⟩

theorem leases_hold_capacity_longSlot : ∃ n, Net.OpenRun "finops:lease" {longSlot} Net.Steady n ∧
    n.store.granted ≠ [] ∧ n.store.HoldsCapacity := by
  obtain ⟨l, hl⟩ : ∃ l, longSlot.lease? "a" epoch.float = some l := by
    refine Option.isSome_iff_exists.mp ?_
    decide +kernel
  have hrun : Net.OpenRun "finops:lease" {longSlot} Net.Steady
      (Net.solo (Store.first "finops:lease" epoch longSlot "a" l) .idle) := by
    refine .first ?_ epoch rfl (by decide +kernel) (by decide +kernel) hl
    intro n n' hnone g hg
    rw [hnone] at hg
    cases hg
  exact ⟨_, hrun, List.cons_ne_nil _ _,
    (leases_hold_capacity "finops:lease" {longSlot}).1 _ hrun⟩

/-- A week after the grant the lease has a second to live, and nothing is counted for it. -/
theorem long_lease_uncounted : ∃ n g, Net.OpenReachable "finops:lease" Set.univ n ∧
    g ∈ n.store.granted ∧ n.store.Live g ∧ ¬ n.store.Counted g := by
  obtain ⟨l, hl⟩ : ∃ l, longSlot.lease? "a" epoch.float = some l := by
    refine Option.isSome_iff_exists.mp ?_
    decide +kernel
  have hrun : Net.OpenReachable "finops:lease" Set.univ
      (Net.solo (Store.first "finops:lease" epoch longSlot "a" l) .idle) :=
    .first (fun _ _ _ => trivial) epoch trivial (by decide +kernel) (by decide +kernel) hl
  have htick := hrun.step (.store (.tick weekLater (show (0 : ℚ) ≤ 604800 by norm_num))) trivial
  have hdue : (Store.first "finops:lease" epoch longSlot "a" l).scopeDeadline
      (scopeKey "finops:lease" longSlot.kind longSlot.scope) ≤ weekLater.seconds := by
    simp [Store.first, Store.grant, Store.initial, epoch, weekLater, keyTtlSeconds]
  have hlost := htick.step (.store (.evictScope
    (scopeKey "finops:lease" longSlot.kind longSlot.scope) true hdue)) trivial
  refine ⟨_, _, hlost, List.mem_cons_self .., ⟨List.not_mem_nil, ?_⟩, ?_⟩
  · have hexpiry : (longSlot.lease? "a" epoch.float).map Lease.expiresAt =
        some (.finite 604801) := by decide +kernel
    rw [hl] at hexpiry
    have he : l.expiresAt = .finite 604801 := Option.some_injective _ hexpiry
    rw [Bool.eq_false_iff, ne_eq]
    show ¬ l.isExpired (.finite 604800) = true
    rw [isExpired_finite he]
    norm_num
  · rintro ⟨live, expired, hpart, hmem⟩
    rw [evictScope_value, if_pos rfl] at hpart
    cases hpart
    cases hmem

end Runs

end AgenticDynamics.Control
