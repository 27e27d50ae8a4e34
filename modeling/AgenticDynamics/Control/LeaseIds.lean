import AgenticDynamics.Control.LeaseClients

/-!
# The ids of leases

No two leases are granted under one id, whatever the clients do: an id carries a random part that
was never handed out before, and it stays with the one client that drew it until that client
writes its lease.
-/

namespace AgenticDynamics.Control

open Python Optimistic

/-- The id of the lease a client is about to write. -/
def Client.pending : Client → Option String
  | .granting _ _ _ l => some l.leaseId
  | _                 => none

@[simp] lemma Client.pending_sweeping (tries : ℕ) (keys : List String) :
    (Client.sweeping tries keys).pending = none := by
  cases keys <;> rfl

@[simp] lemma Client.pending_retry (goal : Goal) (tries : ℕ) :
    (Client.retry goal tries).pending = none := by
  simp only [Client.retry]
  split <;> rfl

section Steps

variable {ns : String} {s s' : Store} {c c' : Client} {e : Event}

lemma ClientStep.pending_new (h : ClientStep ns s c e s' c') {a : String}
    (ha : c'.pending = some a) : s'.granted = s.granted ∧
      ∃ (r : Reservation) (token : String) (l : Lease), token ∉ s.drawn ∧
        s'.drawn = token :: s.drawn ∧ r.lease? token s.clock.float = some l ∧ l.leaseId = a := by
  cases h
  case draw r w live expired token l hfits hnew hlease =>
    cases ha
    exact ⟨rfl, r, token, l, hnew, rfl, hlease, rfl⟩
  case removeLost leaseId key w hexec => split at ha <;> cases ha
  case expireAll | expireScopes | nothingExpired | prune =>
    rw [Client.pending_sweeping] at ha
    cases ha
  case grantLost | pruneLost =>
    rw [Client.pending_retry] at ha
    cases ha
  all_goals cases ha

lemma ClientStep.granted_cases (h : ClientStep ns s c e s' c') : s'.granted = s.granted ∨
    ∃ key l, s'.granted = ⟨key, l⟩ :: s.granted ∧ c.pending = some l.leaseId := by
  cases h with
  | grant r w expired l hexec => exact .inr ⟨_, l, rfl, rfl⟩
  | _ => exact .inl rfl

lemma ClientStep.drawn_subset (h : ClientStep ns s c e s' c') : s.drawn ⊆ s'.drawn := by
  cases h with
  | draw r w live expired token l hfits hnew hlease => exact List.subset_cons_self ..
  | _ => exact List.Subset.refl _

lemma StoreStep.granted_eq (h : StoreStep s s') : s'.granted = s.granted := by
  cases h <;> rfl

lemma StoreStep.drawn_eq (h : StoreStep s s') : s'.drawn = s.drawn := by
  cases h <;> rfl

end Steps

/-- The ids granted so far and the ids about to be written. -/
structure Net.IdsOk (n : Net) : Prop where
  unique : (n.store.granted.map fun g => g.lease.leaseId).Nodup
  tokens : ∀ g ∈ n.store.granted, ∃ kind, ∃ token ∈ n.store.drawn,
    g.lease.leaseId = leaseIdOf kind token
  pending : ∀ i a, (n.clients i).pending = some a →
    ∃ kind, ∃ token ∈ n.store.drawn, a = leaseIdOf kind token
  fresh : ∀ i a, (n.clients i).pending = some a → ∀ g ∈ n.store.granted, g.lease.leaseId ≠ a
  distinct : ∀ i j a, (n.clients i).pending = some a → (n.clients j).pending = some a → i = j

namespace Net.IdsOk

variable {ns : String} {n : Net} {i : ℕ} {e : Event} {s : Store} {c : Client}

lemma start (t : Reading) : Net.IdsOk ⟨Store.initial t, fun _ => .idle⟩ := by
  constructor
  case unique => exact List.nodup_nil
  case tokens =>
    intro g hg
    cases hg
  case distinct =>
    intro i j a ha
    cases ha
  all_goals
    intro i a ha
    cases ha

lemma eq_of_id (h : n.IdsOk) {g g' : Grant} (hg : g ∈ n.store.granted)
    (hg' : g' ∈ n.store.granted) (hid : g.lease.leaseId = g'.lease.leaseId) : g = g' :=
  List.inj_on_of_nodup_map h.unique hg hg' hid

lemma new_id (hstep : ClientStep ns n.store (n.clients i) e s c) {a : String}
    (ha : c.pending = some a) {kind : LeaseKind} {token : String} (htoken : token ∈ n.store.drawn) :
    a ≠ leaseIdOf kind token := by
  rintro heq
  obtain ⟨-, r, token', l, hnot, -, hlease, rfl⟩ := hstep.pending_new ha
  rw [(Reservation.lease?_fields hlease).2.2] at heq
  rw [leaseIdOf_injective heq] at hnot
  exact hnot htoken

lemma update (h : n.IdsOk) (hc : c.pending = none) :
    Net.IdsOk ⟨n.store, Function.update n.clients i c⟩ := by
  have hold : ∀ j a, (Function.update n.clients i c j).pending = some a →
      (n.clients j).pending = some a := by
    intro j a ha
    by_cases hj : j = i
    · subst hj
      rw [Function.update_self, hc] at ha
      cases ha
    · rwa [Function.update_of_ne hj] at ha
  exact ⟨h.unique, h.tokens, fun j a ha => h.pending j a (hold j a ha),
    fun j a ha => h.fresh j a (hold j a ha),
    fun j k a hj hk => h.distinct j k a (hold j a hj) (hold k a hk)⟩

lemma store (h : n.IdsOk) (hstep : StoreStep n.store s) : Net.IdsOk ⟨s, n.clients⟩ := by
  have hgranted := hstep.granted_eq
  have hdrawn := hstep.drawn_eq
  constructor
  case unique =>
    show (s.granted.map fun g => g.lease.leaseId).Nodup
    rw [hgranted]
    exact h.unique
  case tokens =>
    intro g hg
    show ∃ kind, ∃ token ∈ s.drawn, g.lease.leaseId = leaseIdOf kind token
    rw [hdrawn]
    exact h.tokens g (by rwa [hgranted] at hg)
  case pending =>
    intro i a ha
    show ∃ kind, ∃ token ∈ s.drawn, a = leaseIdOf kind token
    rw [hdrawn]
    exact h.pending i a ha
  case fresh =>
    intro i a ha g hg
    exact h.fresh i a ha g (by rwa [hgranted] at hg)
  case distinct => exact h.distinct

lemma client (h : n.IdsOk) (hstep : ClientStep ns n.store (n.clients i) e s c) :
    Net.IdsOk ⟨s, Function.update n.clients i c⟩ := by
  constructor
  case unique =>
    rcases hstep.granted_cases with hsame | ⟨key, l, hcons, hpending⟩
    · show (s.granted.map fun g => g.lease.leaseId).Nodup
      rw [hsame]
      exact h.unique
    · show (s.granted.map fun g => g.lease.leaseId).Nodup
      rw [hcons, List.map_cons, List.nodup_cons]
      refine ⟨?_, h.unique⟩
      intro hmem
      obtain ⟨g, hg, hid⟩ := List.mem_map.mp hmem
      exact h.fresh i _ hpending g hg hid
  case tokens =>
    intro g hg
    have hdrawn : ∃ kind, ∃ token ∈ n.store.drawn, g.lease.leaseId = leaseIdOf kind token := by
      rcases hstep.granted_cases with hsame | ⟨key, l, hcons, hpending⟩
      · exact h.tokens g (by rwa [hsame] at hg)
      · change g ∈ s.granted at hg
        rw [hcons] at hg
        rcases List.mem_cons.mp hg with rfl | hg
        · exact h.pending i _ hpending
        · exact h.tokens g hg
    obtain ⟨kind, token, htoken, hid⟩ := hdrawn
    exact ⟨kind, token, hstep.drawn_subset htoken, hid⟩
  case pending =>
    intro j a ha
    by_cases hj : j = i
    · subst hj
      simp only [Function.update_self] at ha
      obtain ⟨-, r, token, l, -, hdrawn, hlease, rfl⟩ := hstep.pending_new ha
      refine ⟨r.kind, token, ?_, (Reservation.lease?_fields hlease).2.2⟩
      rw [hdrawn]
      exact List.mem_cons_self ..
    · simp only [ne_eq, hj, not_false_eq_true, Function.update_of_ne] at ha
      obtain ⟨kind, token, htoken, hid⟩ := h.pending j a ha
      exact ⟨kind, token, hstep.drawn_subset htoken, hid⟩
  case fresh =>
    intro j a ha g hg
    by_cases hj : j = i
    · subst hj
      simp only [Function.update_self] at ha
      rw [(hstep.pending_new ha).1] at hg
      obtain ⟨kind, token, htoken, hid⟩ := h.tokens g hg
      rw [hid]
      exact (new_id hstep ha htoken).symm
    · simp only [ne_eq, hj, not_false_eq_true, Function.update_of_ne] at ha
      rcases hstep.granted_cases with hsame | ⟨key, l, hcons, hpending⟩
      · rw [hsame] at hg
        exact h.fresh j a ha g hg
      · rw [hcons] at hg
        rcases List.mem_cons.mp hg with rfl | hg
        · rintro rfl
          exact hj (h.distinct j i _ ha hpending)
        · exact h.fresh j a ha g hg
  case distinct =>
    have hother : ∀ j a, j ≠ i → c.pending = some a → (n.clients j).pending ≠ some a := by
      intro j a _ ha hja
      obtain ⟨kind, token, htoken, hid⟩ := h.pending j a hja
      exact new_id hstep ha htoken hid
    intro j k a hja hka
    by_cases hj : j = i <;> by_cases hk : k = i
    · rw [hj, hk]
    · simp only [hj, Function.update_self] at hja
      simp only [ne_eq, hk, not_false_eq_true, Function.update_of_ne] at hka
      exact absurd hka (hother k a hk hja)
    · simp only [hk, Function.update_self] at hka
      simp only [ne_eq, hj, not_false_eq_true, Function.update_of_ne] at hja
      exact absurd hja (hother j a hj hka)
    · simp only [ne_eq, hj, hk, not_false_eq_true, Function.update_of_ne] at hja hka
      exact h.distinct j k a hja hka

end Net.IdsOk

end AgenticDynamics.Control
