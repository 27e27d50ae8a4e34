import AgenticDynamics.Control.LeaseSafety

/-!
# The registry as its callers use it

The clients of the registry without any promise on the lifetimes they ask for. The reservations
they make come from a set, the demand, and everything else goes as before. What stays true is
said of the histories alone: every entry of a scope hash is a lease that was granted there, and
whatever a client is about to delete as expired has expired.
-/

namespace AgenticDynamics.Control

open Python Optimistic

/-! ### Calls -/

/-- One step when the calls of `_reserve` are those of the demand. -/
inductive Net.OpenStep (ns : String) (demand : Set Reservation) : Net → Event → Net → Prop
  | reserve {n} (i : ℕ) (r : Reservation) (tries : ℕ) (hidle : n.clients i = .idle)
      (hdemand : r ∈ demand) (hcheck : r.check = .ok ()) :
      Net.OpenStep ns demand n .internal
        ⟨n.store, Function.update n.clients i (.starting (.reserve r) tries)⟩
  | client {n e s c} (i : ℕ) (hstep : ClientStep ns n.store (n.clients i) e s c)
      (hcall : n.clients i = .idle → ∀ r tries, c ≠ .starting (.reserve r) tries) :
      Net.OpenStep ns demand n e ⟨s, Function.update n.clients i c⟩
  | store {n s} (hstep : StoreStep n.store s) : Net.OpenStep ns demand n .internal ⟨s, n.clients⟩

/-- Every interleaving whose steps meet a condition, from an empty registry. -/
inductive Net.OpenRun (ns : String) (demand : Set Reservation) (meets : Net → Net → Prop) :
    Net → Prop
  | start (t : Reading) : Net.OpenRun ns demand meets ⟨Store.initial t, fun _ => .idle⟩
  | step {n e n'} (h : Net.OpenRun ns demand meets n) (hstep : Net.OpenStep ns demand n e n')
      (hmeets : meets n n') : Net.OpenRun ns demand meets n'

/-- Every interleaving, from an empty registry. -/
abbrev Net.OpenReachable (ns : String) (demand : Set Reservation) : Net → Prop :=
  Net.OpenRun ns demand fun _ _ => True

lemma Net.OpenRun.reachable {ns : String} {demand : Set Reservation} {meets : Net → Net → Prop}
    {n : Net} (h : Net.OpenRun ns demand meets n) : Net.OpenReachable ns demand n := by
  induction h with
  | start t => exact .start t
  | step _ hstep _ ih => exact ih.step hstep trivial

/-! ### What clients know -/

/-- Leases that were granted and have expired since. -/
def Spent (s : Store) (expired : Dict Lease) : Prop :=
  ∀ i ∈ expired.map Prod.fst, ∃ g ∈ s.granted,
    g.lease.leaseId = i ∧ g.lease.isExpired s.clock.float = true

/-- A reservation of the demand that reaches Redis. -/
def Called (demand : Set Reservation) (r : Reservation) : Prop := r ∈ demand ∧ r.check = .ok ()

def Goal.From (demand : Set Reservation) : Goal → Prop
  | reserve r => Called demand r
  | sweep _ _ => True

/-- What a client has read was granted, and what it will delete as expired is. -/
def Informed (ns : String) (demand : Set Reservation) (s : Store) : Client → Prop
  | .starting goal _ => goal.From demand
  | .watching goal _ => goal.From demand
  | .fetched goal _ raw => goal.From demand ∧
      ∀ entry ∈ raw, FromGrant s.granted (goal.key ns) entry
  | .counted r _ live expired => Called demand r ∧ Spent s expired ∧
      ∀ l ∈ live, ⟨scopeKey ns r.kind r.scope, l⟩ ∈ s.granted
  | .granting r _ expired l => Called demand r ∧ Spent s expired ∧ r.fits [] = true ∧
      ∃ token now, r.lease? token now = some l
  | .pruning _ _ _ expired => Spent s expired
  | _ => True

section Knowledge

variable {ns : String} {demand : Set Reservation} {s s' : Store}

/-- What stays known when the histories grow. -/
structure Onward (s s' : Store) : Prop where
  clock : s.clock.seconds ≤ s'.clock.seconds
  granted : s.granted ⊆ s'.granted

lemma Later.onward (h : Later s s') : Onward s s' := ⟨h.clock, h.granted⟩

lemma Spent.onward {expired : Dict Lease} (h : Spent s expired) (hs : Onward s s') :
    Spent s' expired := by
  intro i hi
  obtain ⟨g, hg, hid, hexp⟩ := h i hi
  exact ⟨g, hs.granted hg, hid, Lease.expired_mono hs.clock hexp⟩

lemma Informed.onward {c : Client} (h : Informed ns demand s c) (hs : Onward s s') :
    Informed ns demand s' c := by
  cases c with
  | fetched goal w raw => exact ⟨h.1, fun entry he => (h.2 entry he).mono hs.granted⟩
  | counted r w live expired => exact ⟨h.1, h.2.1.onward hs, fun l hl => hs.granted (h.2.2 l hl)⟩
  | granting r w expired l => exact ⟨h.1, h.2.1.onward hs, h.2.2⟩
  | pruning key rest w expired => exact Spent.onward h hs
  | _ => exact h

lemma informed_sweeping (tries : ℕ) (keys : List String) :
    Informed ns demand s (.sweeping tries keys) := by
  cases keys <;> trivial

lemma informed_retry {goal : Goal} (h : goal.From demand) (tries : ℕ) :
    Informed ns demand s (.retry goal tries) := by
  simp only [Client.retry]
  split
  · trivial
  · exact h

lemma spent_of_partition {key : String} {raw : Dict Stored} {live : List Lease}
    {expired : Dict Lease} (hfrom : ∀ entry ∈ raw, FromGrant s.granted key entry)
    (hpart : partition s.clock.float raw = .ok (live, expired)) : Spent s expired := by
  intro i hi
  obtain ⟨⟨i, l⟩, hil, rfl⟩ := List.mem_map.mp hi
  obtain ⟨hraw, hexp⟩ := ((mem_partition hpart).2 i l).mp hil
  obtain ⟨g, hg, -, hid, heq⟩ := hfrom _ hraw
  cases heq
  exact ⟨g, hg, hid, hexp⟩

lemma granted_of_partition {key : String} {raw : Dict Stored} {live : List Lease}
    {expired : Dict Lease} (hfrom : ∀ entry ∈ raw, FromGrant s.granted key entry)
    (hpart : partition s.clock.float raw = .ok (live, expired)) :
    ∀ l ∈ live, ⟨key, l⟩ ∈ s.granted := by
  intro l hl
  obtain ⟨i, hraw, -⟩ := ((mem_partition hpart).1 l).mp hl
  obtain ⟨⟨key', l'⟩, hg, hkey, -, heq⟩ := hfrom _ hraw
  cases heq
  cases hkey
  exact hg

end Knowledge

/-! ### The invariant -/

/-- The grant is what a reservation of the demand gets that would fit alone. -/
def GrantedTo (ns : String) (r : Reservation) (g : Grant) : Prop :=
  r.fits [] = true ∧ g.key = scopeKey ns r.kind r.scope ∧
    ∃ token now, r.lease? token now = some g.lease

/-- Every entry of a scope hash was granted there, to a reservation of the demand. -/
structure HistoryOk (ns : String) (demand : Set Reservation) (s : Store) : Prop where
  entries : ∀ key, ∀ entry ∈ (s.scopes key).value, FromGrant s.granted key entry
  demanded : ∀ g ∈ s.granted, ∃ r, Called demand r ∧ GrantedTo ns r g

structure OpenOk (ns : String) (demand : Set Reservation) (n : Net) : Prop where
  history : HistoryOk ns demand n.store
  clients : ∀ i, Informed ns demand n.store (n.clients i)
  ids : n.IdsOk

section Steps

variable {ns : String} {demand : Set Reservation} {s s' : Store} {c c' : Client} {e : Event}

lemma HistoryOk.amount_pos (hs : HistoryOk ns demand s) {g : Grant} (hg : g ∈ s.granted) :
    g.lease.amount.isFinite ∧ 0 ≤ g.lease.amount.toRat := by
  obtain ⟨r, -, -, -, token, now, hlease⟩ := hs.demanded g hg
  rw [(Reservation.lease?_terms hlease).1]
  exact ⟨rfl, r.amount.pos.le⟩

lemma ClientStep.history (hs : HistoryOk ns demand s) (hc : Informed ns demand s c)
    (hfresh : ∀ a, c.pending = some a → ∀ g ∈ s.granted, g.lease.leaseId ≠ a)
    (h : ClientStep ns s c e s' c') : HistoryOk ns demand s' := by
  cases h with
  | grant r w expired l hexec =>
    obtain ⟨hr, -, hfits, token, now, hlease⟩ := hc
    constructor
    · intro k entry hentry
      rcases (mem_grant_scope (hs.entries _) (hfresh _ rfl)).mp hentry with ⟨hold, -⟩ | ⟨rfl, rfl⟩
      · exact (hs.entries k entry hold).mono (List.subset_cons_self ..)
      · exact ⟨⟨_, l⟩, List.mem_cons_self .., rfl, rfl, rfl⟩
    · intro g hg
      rcases List.mem_cons.mp hg with rfl | hg
      · exact ⟨r, hr, hfits, rfl, token, now, hlease⟩
      · exact hs.demanded g hg
  | prune key rest w expired hexec =>
    exact ⟨fun k entry hentry => hs.entries k entry (mem_delete_scope.mp hentry).1, hs.demanded⟩
  | remove leaseId key w hexec =>
    refine ⟨?_, hs.demanded⟩
    intro k entry hentry
    have hdelete : entry ∈ ((s.delete key [leaseId]).scopes k).value := hentry
    exact hs.entries k entry (mem_delete_scope.mp hdelete).1
  | draw r w live expired token l hfits hnew hlease => exact ⟨hs.entries, hs.demanded⟩
  | _ => exact hs

lemma ClientStep.informed (hs : HistoryOk ns demand s) (hc : Informed ns demand s c)
    (hcall : c = .idle → ∀ r tries, c' ≠ .starting (.reserve r) tries)
    (h : ClientStep ns s c e s' c') : Informed ns demand s' c' := by
  cases h with
  | reserve r tries hcheck httl => exact absurd rfl (hcall rfl r tries)
  | expireAll tries => exact informed_sweeping ..
  | expireScopes tries scopes => exact informed_sweeping ..
  | watch goal tries => exact hc
  | fetch goal w => exact ⟨hc, hs.entries _⟩
  | count r w raw live expired hpart =>
    obtain ⟨hr, hfrom⟩ := hc
    exact ⟨hr, spent_of_partition hfrom hpart, granted_of_partition hfrom hpart⟩
  | draw r w live expired token l hfits hnew hlease =>
    obtain ⟨hr, hspent, hlive⟩ := hc
    refine ⟨hr, hspent.onward (later_draw token).onward, ?_, token, _, hlease⟩
    exact Reservation.fits_nil_of_fits hfits fun l hl => hs.amount_pos (hlive l hl)
  | grantLost r w expired l hexec =>
    have hgoal : (Goal.reserve r).From demand := hc.1
    exact informed_retry hgoal _
  | nothingExpired key rest w raw live hpart => exact informed_sweeping ..
  | someExpired key rest w raw live expired hsome hpart => exact spent_of_partition hc.2 hpart
  | prune key rest w expired hexec => exact informed_sweeping ..
  | pruneLost key rest w expired hexec =>
    have hgoal : (Goal.sweep key rest).From demand := trivial
    exact informed_retry hgoal _
  | removeLost leaseId key w hexec => split <;> trivial
  | _ => trivial

lemma StoreStep.history (hs : HistoryOk ns demand s) (h : StoreStep s s') :
    HistoryOk ns demand s' := by
  cases h with
  | tick now hle => exact ⟨hs.entries, hs.demanded⟩
  | evictIndex counted hdue => exact ⟨hs.entries, hs.demanded⟩
  | evictScope key counted hdue =>
    refine ⟨?_, hs.demanded⟩
    intro k entry hentry
    rw [evictScope_value] at hentry
    split at hentry
    · cases hentry
    · exact hs.entries k entry hentry

end Steps

section Runs

variable {ns : String} {demand : Set Reservation} {n n' : Net} {e : Event}

lemma OpenOk.step (h : OpenOk ns demand n) (hstep : Net.OpenStep ns demand n e n') :
    OpenOk ns demand n' := by
  cases hstep with
  | reserve i r tries hidle hdemand hcheck =>
    refine ⟨h.history, ?_, h.ids.update rfl⟩
    intro j
    by_cases hj : j = i
    · subst hj
      simp only [Function.update_self]
      exact ⟨hdemand, hcheck⟩
    · simpa [hj] using h.clients j
  | client i hstep hcall =>
    refine ⟨hstep.history h.history (h.clients i) (h.ids.fresh i), ?_, h.ids.client hstep⟩
    intro j
    by_cases hj : j = i
    · subst hj
      simpa using hstep.informed h.history (h.clients j) hcall
    · simpa [hj] using (h.clients j).onward hstep.later.onward
  | store hstep =>
    exact ⟨hstep.history h.history, fun i => (h.clients i).onward hstep.later.onward,
      h.ids.store hstep⟩

lemma Net.OpenReachable.ok (h : Net.OpenReachable ns demand n) : OpenOk ns demand n := by
  induction h with
  | start t =>
    refine ⟨⟨?_, ?_⟩, fun _ => trivial, .start t⟩
    · intro key entry hentry
      cases hentry
    · intro g hg
      cases hg
  | step _ hstep _ ih => exact ih.step hstep

end Runs

/-! ### A single client -/

section Solo

variable {ns : String} {demand : Set Reservation} {s s' : Store} {c c' : Client} {e : Event}

lemma Net.solo_clients (s : Store) (c : Client) : (Net.solo s c).clients 0 = c := by
  simp [Net.solo]

lemma Net.solo_update (s s' : Store) (c c' : Client) :
    (⟨s', Function.update (Net.solo s c).clients 0 c'⟩ : Net) = Net.solo s' c' := by
  simp [Net.solo]

lemma Net.OpenStep.solo (h : ClientStep ns s c e s' c')
    (hcall : c = .idle → ∀ r tries, c' ≠ .starting (.reserve r) tries) :
    Net.OpenStep ns demand (Net.solo s c) e (Net.solo s' c') := by
  have hstep : Net.OpenStep ns demand (Net.solo s c) e
      ⟨s', Function.update (Net.solo s c).clients 0 c'⟩ := by
    refine .client 0 ?_ ?_
    · rw [Net.solo_clients]
      exact h
    · rw [Net.solo_clients]
      exact hcall
  rwa [Net.solo_update] at hstep

lemma Net.OpenStep.solo_reserve {r : Reservation} (hr : r ∈ demand) (hcheck : r.check = .ok ())
    (tries : ℕ) : Net.OpenStep ns demand (Net.solo s .idle) .internal
      (Net.solo s (.starting (.reserve r) tries)) := by
  have hstep : Net.OpenStep ns demand (Net.solo s .idle) .internal
      ⟨s, Function.update (Net.solo s .idle).clients 0 (.starting (.reserve r) tries)⟩ :=
    .reserve 0 r tries (Net.solo_clients s .idle) hr hcheck
  rwa [Net.solo_update] at hstep

def Store.first (ns : String) (t : Reading) (r : Reservation) (token : String) (l : Lease) :
    Store :=
  ({ Store.initial t with drawn := [token] } : Store).grant (scopeKey ns r.kind r.scope) [] l

lemma Net.OpenRun.first {meets : Net → Net → Prop}
    (hmeets : ∀ n n', n.store.granted = [] → meets n n') (t : Reading) {r : Reservation}
    {token : String} {l : Lease} (hr : r ∈ demand) (hcheck : r.check = .ok ())
    (hfits : r.fits [] = true) (hlease : r.lease? token t.float = some l) :
    Net.OpenRun ns demand meets (Net.solo (Store.first ns t r token l) .idle) := by
  let w : Watched := ⟨1, 0, 0⟩
  have h0 : Net.OpenRun ns demand meets (Net.solo (.initial t) .idle) := by
    have h : Net.OpenRun ns demand meets ⟨.initial t, fun _ => .idle⟩ := .start t
    simpa [Net.solo] using h
  have h1 := h0.step (.solo_reserve hr hcheck 1) (hmeets _ _ rfl)
  have h2 := h1.step (.solo (.watch (.reserve r) 1) (by simp)) (hmeets _ _ rfl)
  have h3 := h2.step (.solo (.fetch (.reserve r) w) (by simp)) (hmeets _ _ rfl)
  have h4 := h3.step (.solo (.count r w [] [] [] rfl) (by simp)) (hmeets _ _ rfl)
  have h5 := h4.step (.solo (.draw r w [] [] token l hfits List.not_mem_nil hlease) (by simp))
    (hmeets _ _ rfl)
  exact h5.step (.solo (.grant r w [] l ⟨rfl, rfl⟩) (by simp)) (hmeets _ _ rfl)

end Solo

end AgenticDynamics.Control
