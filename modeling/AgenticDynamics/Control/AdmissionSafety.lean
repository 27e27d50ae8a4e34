import AgenticDynamics.Control.Admission

/-!
# Admission is all or nothing

Each call of the registry either writes one grant or leaves the registry alone. From this the
leases a request holds are known at every point of `admitRequest`, and the unwinding gives
back exactly these. Two exceptions of other classes get past the handlers; the main theorem says
when.
-/

namespace AgenticDynamics.Control

open Python Script

/-! ### What a call does -/

/-- Nothing was written; only statements were sent. -/
structure Quiet (s t : Session Registry) : Prop where
  store : t.store = s.store
  ticks : s.ticks ≤ t.ticks

lemma Quiet.refl (s : Session Registry) : Quiet s s := ⟨rfl, le_rfl⟩

lemma Quiet.trans {s t u : Session Registry} (h : Quiet s t) (h' : Quiet t u) : Quiet s u :=
  ⟨h'.store.trans h.store, h.ticks.trans h'.ticks⟩

lemma Quiet.tick {s t : Session Registry} (h : Quiet s t) : Quiet s t.tick :=
  ⟨h.store, h.ticks.trans (Nat.le_succ _)⟩

/-- The error is an admission error of the registry. -/
def Raised.IsRefusal (e : Raised) : Prop := ∃ d, e = .refused d

section Specs

variable (env : AdmissionEnv) {s : Session Registry}

def keyOf (l : Lease) : String := scopeKey env.ns l.kind l.scope

/-- One lease was written, under a token drawn on the way, and only leases that had expired at a
reading of the clock on the way were pruned. -/
structure Granted (kind : LeaseKind) (scope : LeaseScope) (s : Session Registry) (l : Lease)
    (t : Session Registry) : Prop where
  kind_eq : l.kind = kind
  scope_eq : l.scope = scope
  token : ∃ n, s.ticks ≤ n ∧ n < t.ticks ∧ l.leaseId = leaseIdOf kind (env.token n)
  write : ∃ expired, t.store = s.store.grant expired (keyOf env l) l ∧
    ∀ i l', (i, l') ∈ expired → (i, .lease l') ∈ s.store.scopes (keyOf env l) ∧
      ∃ n ≤ t.ticks, l'.isExpired (.finite (env.clock n)) = true

variable {env}

lemma Granted.after {kind : LeaseKind} {scope : LeaseScope} {t u : Session Registry} {l : Lease}
    (h : Granted env kind scope t l u) (hs : Quiet s t) : Granted env kind scope s l u := by
  obtain ⟨hkind, hscope, ⟨n, hn, hlt, hid⟩, hwrite⟩ := h
  refine ⟨hkind, hscope, ⟨n, hs.ticks.trans hn, hlt, hid⟩, ?_⟩
  rwa [hs.store] at hwrite

lemma ends_check {α : Type} {x : Except LeaseError α} {o : Oracle Raised}
    {Q : α → Session Registry → Prop} {E : Raised → Session Registry → Prop}
    (hok : ∀ a, x = .ok a → Q a s) (herr : ∀ d, E (.refused d) s) :
    Ends (lift (refuse x) : RegistryScript α) o s Q E := by
  refine ends_lift ?_ ?_
  · intro a ha
    cases x with
    | ok b =>
      cases ha
      exact hok a rfl
    | error d => cases ha
  · intro e he
    cases x with
    | ok b => cases he
    | error d =>
      cases he
      exact herr d

lemma reserveAttempt_ends (r : Reservation) :
    Ends (reserveAttempt env r) env.reserving s
      (fun x t => match x with
        | some l => Granted env r.kind r.scope s l t
        | none   => Quiet s t)
      (fun e t => Quiet s t ∧ ∀ w, (e.guarded w).IsRefusal) := by
  have hfault : ∀ n e, env.reserving.fault n = some e → ∀ w, (e.guarded w).IsRefusal := by
    intro n e he w
    simp only [AdmissionEnv.reserving, Option.map_eq_some_iff] at he
    obtain ⟨detail, -, rfl⟩ := he
    exact ⟨_, rfl⟩
  simp only [reserveAttempt]
  rw [ends_bind]
  refine ends_query ?_ fun e he => ⟨(Quiet.refl s).tick, hfault _ e he⟩
  rw [ends_bind, ends_sample, ends_bind]
  refine ends_check ?_ fun d => ⟨(Quiet.refl s).tick.tick, fun w => ⟨d, rfl⟩⟩
  rintro ⟨live, expired⟩ hpart
  rw [ends_bind, ends_sample]
  split
  · rw [ends_bind, ends_sample]
    split
    · rw [ends_raise]
      exact ⟨(Quiet.refl s).tick.tick.tick.tick, fun w => ⟨_, rfl⟩⟩
    · rename_i l hlease
      obtain ⟨hkind, hscope, hid⟩ := Reservation.lease?_fields hlease
      rw [ends_bind, ends_sample]
      split
      · rw [ends_pure]
        exact (Quiet.refl s).tick.tick.tick.tick.tick
      · rw [ends_bind]
        refine ends_execute ?_ fun e he =>
          ⟨(Quiet.refl s).tick.tick.tick.tick.tick.tick, hfault _ e he⟩
        rw [ends_pure]
        refine ⟨hkind, hscope, ⟨s.ticks + 3, by omega, ?_, hid⟩, expired, ?_, ?_⟩
        · show s.ticks + 3 < s.ticks + 1 + 1 + 1 + 1 + 1 + 1
          omega
        · simp only [keyOf, hkind, hscope]
          rfl
        · intro i l' hl'
          obtain ⟨hmem, hexp⟩ := ((mem_partition hpart).2 i l').mp hl'
          refine ⟨?_, s.ticks + 1, ?_, hexp⟩
          · simpa only [keyOf, hkind, hscope] using hmem
          · show s.ticks + 1 ≤ s.ticks + 1 + 1 + 1 + 1 + 1 + 1
            omega
  · rw [ends_raise]
    exact ⟨(Quiet.refl s).tick.tick.tick, fun w => ⟨_, rfl⟩⟩

lemma reserveLoop_ends (r : Reservation) (n : ℕ) :
    Ends (reserveLoop env r n) env.reserving s (fun l t => Granted env r.kind r.scope s l t)
      (fun e t => Quiet s t ∧ e.IsRefusal) := by
  induction n generalizing s with
  | zero =>
    simp only [reserveLoop, ends_raise]
    exact ⟨Quiet.refl s, _, rfl⟩
  | succ n ih =>
    simp only [reserveLoop]
    rw [ends_bind]
    refine ends_mapError ((reserveAttempt_ends r).mono ?_ ?_)
    · intro x t ht
      cases x with
      | some l =>
        simp only [ends_pure]
        exact ht
      | none =>
        refine (ih (s := t)).mono ?_ ?_
        · intro l u hu
          exact hu.after ht
        · rintro e u ⟨hu, he⟩
          exact ⟨ht.trans hu, he⟩
    · rintro e t ⟨ht, he⟩
      exact ⟨ht, he _⟩

lemma reserve_ends (r : Reservation) :
    Ends (reserve env r) env.reserving s
      (fun l t => Granted env r.kind r.scope s l t ∧ 0 < r.ttlSeconds)
      (fun e t => Quiet s t ∧ (e.IsRefusal ∨ e = .digits ∧
        strip r.runId ≠ "" ∧ r.ttlSeconds ≤ 0 ∧ ¬ Printable r.ttlSeconds)) := by
  simp only [reserve]
  split
  · rename_i hbad
    rw [ends_raise]
    exact ⟨Quiet.refl s, .inr ⟨rfl, hbad⟩⟩
  · rw [ends_bind]
    refine ends_check ?_ fun d => ⟨Quiet.refl s, .inl ⟨d, rfl⟩⟩
    intro _ hcheck
    have hpos : 0 < r.ttlSeconds := by
      simp only [Reservation.check] at hcheck
      split_ifs at hcheck with _ h0
      omega
    refine (reserveLoop_ends r env.maxRetries).mono ?_ ?_
    · intro l t ht
      exact ⟨ht, hpos⟩
    · rintro e t ⟨ht, he⟩
      exact ⟨ht, .inl he⟩

lemma resolveCap_ends (kind : LeaseKind) (scope : LeaseScope) (explicit : Option PyFloat) :
    Ends (resolveCap env kind scope explicit) env.reserving s (fun _ t => Quiet s t)
      (fun e t => Quiet s t ∧ e.IsRefusal) := by
  cases explicit with
  | some cap =>
    exact ends_check (fun _ _ => Quiet.refl s) fun d => ⟨Quiet.refl s, d, rfl⟩
  | none =>
    simp only [resolveCap, getCap]
    rw [ends_bind, ends_bind]
    refine ends_mapError (ends_query ?_ ?_)
    · split
      · simp only [ends_pure, ends_raise]
        exact ⟨(Quiet.refl s).tick, _, rfl⟩
      · split
        · simp only [ends_pure]
          exact ends_check (fun _ _ => (Quiet.refl s).tick) fun d => ⟨(Quiet.refl s).tick, d, rfl⟩
        · rw [ends_raise]
          exact ⟨(Quiet.refl s).tick, _, rfl⟩
    · intro e he
      simp only [AdmissionEnv.reserving, Option.map_eq_some_iff] at he
      obtain ⟨detail, -, rfl⟩ := he
      exact ⟨(Quiet.refl s).tick, _, rfl⟩

variable {req : AdmissionRequest} {p : Priced}

lemma budgetRequest_ends :
    Ends (budgetRequest env req p) env.reserving s
      (fun r t => Quiet s t ∧ r.kind = .budget ∧ req.resolvedBudgetScope = .ok r.scope ∧
        r.ttlSeconds = req.ttlSeconds ∧ r.providerClass = p.providerClass ∧
        r.unit = budgetUnit p.providerClass)
      (fun e t => Quiet s t ∧ e.IsRefusal) := by
  simp only [budgetRequest, budgetReservation]
  rw [ends_bind]
  refine ends_check ?_ fun d => ⟨Quiet.refl s, d, rfl⟩
  intro scope hscope
  rw [ends_bind]
  refine ends_check ?_ fun d => ⟨Quiet.refl s, d, rfl⟩
  intro amount _
  rw [ends_bind]
  refine (resolveCap_ends .budget scope req.budgetCap).mono ?_ fun _ _ h => h
  intro cap t ht
  rw [ends_bind]
  refine ends_check ?_ fun d => ⟨ht, d, rfl⟩
  intro _ _
  rw [ends_pure]
  exact ⟨ht, rfl, hscope, rfl, rfl, rfl⟩

lemma takeBudget_eq : takeBudget env req p = budgetRequest env req p >>= reserve env := by
  simp only [takeBudget, budgetRequest, reserveBudget]
  cases req.resolvedBudgetScope <;> rfl

/-- The lifetime of the budget lease is refused with a text that cannot be made. -/
def LifetimeUnprintable (env : AdmissionEnv) (req : AdmissionRequest) (p : Priced)
    (s : Session Registry) : Prop :=
  ∃ r t, budgetRequest env req p env.reserving s = (.ok r, t) ∧
    strip r.runId ≠ "" ∧ r.ttlSeconds ≤ 0 ∧ ¬ Printable r.ttlSeconds

lemma takeBudget_ends :
    Ends (takeBudget env req p) env.reserving s
      (fun l t => 0 < req.ttlSeconds ∧
        ∃ scope, req.resolvedBudgetScope = .ok scope ∧ Granted env .budget scope s l t)
      (fun e t => Quiet s t ∧ (e.IsRefusal ∨ e = .digits ∧ LifetimeUnprintable env req p s)) := by
  rw [takeBudget_eq]
  refine ends_bind_run ?_ ?_
  · intro r t hrun
    obtain ⟨hquiet, hkind, hscope, httl, -⟩ := budgetRequest_ends.of_ok hrun
    refine (reserve_ends r).mono ?_ ?_
    · rintro l u ⟨hgranted, hpos⟩
      rw [hkind] at hgranted
      exact ⟨by omega, r.scope, hscope, hgranted.after hquiet⟩
    · rintro e u ⟨hu, he | ⟨he, hbad⟩⟩
      · exact ⟨hquiet.trans hu, .inl he⟩
      · exact ⟨hquiet.trans hu, .inr ⟨he, r, t, hrun, hbad⟩⟩
  · intro e t hrun
    obtain ⟨hquiet, he⟩ := budgetRequest_ends.of_error hrun
    exact ⟨hquiet, .inl he⟩

lemma takeSlots_ends (httl : 0 < req.ttlSeconds) (scope : LeaseScope) :
    Ends (takeSlots env req scope) env.reserving s
      (fun l t => Granted env .concurrency scope s l t)
      (fun e t => Quiet s t ∧ (e.IsRefusal ∨ e = .overflow ∧ floatOfInt req.slots = none)) := by
  simp only [takeSlots, reserveConcurrency]
  split
  · rename_i hnone
    rw [ends_raise]
    exact ⟨Quiet.refl s, .inr ⟨rfl, hnone⟩⟩
  · rw [ends_bind]
    refine ends_check ?_ fun d => ⟨Quiet.refl s, .inl ⟨d, rfl⟩⟩
    intro slots _
    rw [ends_bind]
    refine (resolveCap_ends .concurrency scope _).mono ?_ fun _ _ h => ⟨h.1, .inl h.2⟩
    intro cap t ht
    refine (reserve_ends _).mono ?_ ?_
    · rintro l u ⟨hgranted, -⟩
      exact hgranted.after ht
    · rintro e u ⟨hu, he | ⟨-, -, hbad, -⟩⟩
      · exact ⟨ht.trans hu, .inl he⟩
      · change req.ttlSeconds ≤ 0 at hbad
        omega

/-! ### Releasing -/

structure ReleasesSucceed (env : AdmissionEnv) : Prop where
  won : ∀ n, env.releaseLost n = false
  answered : ∀ n, env.releaseFailure n = none

/-- What a release leaves of the registry. -/
def Registry.without (leaseId : String) (reg : Registry) : Registry :=
  match Dict.get? leaseId reg.index with
  | none     => reg
  | some key => reg.drop leaseId key

lemma releaseAttempt_ends (h : ReleasesSucceed env) (leaseId : String) :
    Ends (releaseAttempt env leaseId) env.releasing s
      (fun x t => x ≠ none ∧ t.store = s.store.without leaseId ∧ s.ticks ≤ t.ticks)
      (fun e t => e.IsRefusal ∧ t.store = s.store.without leaseId ∧ s.ticks ≤ t.ticks) := by
  have hfault : ∀ n e, env.releasing.fault n = some e → False := by
    intro n e he
    simp [AdmissionEnv.releasing, h.answered] at he
  simp only [releaseAttempt, Registry.without]
  rw [ends_bind]
  refine ends_query ?_ fun e he => (hfault _ e he).elim
  cases Dict.get? leaseId s.store.index with
  | none => exact ends_pure.mpr ⟨by simp, rfl, Nat.le_succ _⟩
  | some key =>
    dsimp only
    rw [ends_bind]
    refine ends_query ?_ fun e he => (hfault _ e he).elim
    rw [ends_bind, ends_sample, h.won, if_neg (by simp), ends_bind]
    refine ends_execute ?_ fun e he => (hfault _ e he).elim
    have hticks : s.ticks ≤ s.ticks + 1 + 1 + 1 + 1 := by omega
    rw [ends_bind]
    refine ends_lift (fun _ _ => ends_pure.mpr ⟨by simp, rfl, hticks⟩) ?_
    intro e he
    refine ⟨?_, rfl, hticks⟩
    simp only [parseReleased] at he
    split at he <;> cases he <;> exact ⟨_, rfl⟩

lemma release_ends (h : ReleasesSucceed env) {leaseId : String} (hid : strip leaseId ≠ "")
    (o : Oracle Raised) :
    Ends (release env leaseId) o s
      (fun _ t => t.store = s.store.without leaseId ∧ s.ticks ≤ t.ticks)
      (fun e t => e.IsRefusal ∧ t.store = s.store.without leaseId ∧ s.ticks ≤ t.ticks) := by
  obtain ⟨n, hn⟩ : ∃ n, env.maxRetries = n + 1 := ⟨env.maxRetries - 1, by have := env.retries_pos; omega⟩
  simp only [release, if_neg hid, hn, releaseLoop]
  rw [ends_against, ends_bind]
  refine ends_mapError ((releaseAttempt_ends h leaseId).mono ?_ ?_)
  · rintro x t ⟨hx, ht⟩
    cases x with
    | none => exact absurd rfl hx
    | some released =>
      simp only [ends_pure]
      exact ht
  · rintro e t ⟨⟨d, rfl⟩, ht⟩
    exact ⟨⟨d, rfl⟩, ht⟩

end Specs

/-! ### What a request holds -/

/-- A live lease under its id in the scope hash `key`. -/
def Registry.Live (reg : Registry) (time : ℚ) (key leaseId : String) (l : Lease) : Prop :=
  (leaseId, .lease l) ∈ reg.scopes key ∧ l.isExpired (.finite time) = false

/-- The clock does not go back, and the random parts of ids are new. -/
structure Regular (env : AdmissionEnv) (before : Registry) : Prop where
  clock : Monotone env.clock
  token : ∀ m n, env.token m = env.token n → m = n
  unused : ∀ key, ∀ e ∈ before.scopes key, ∀ kind n, e.1 ≠ leaseIdOf kind (env.token n)
  unlisted : ∀ e ∈ before.index, ∀ kind n, e.1 ≠ leaseIdOf kind (env.token n)

/-- The registry is as it was before, apart from expired leases and from the leases `taken`. -/
structure Holding (env : AdmissionEnv) (before : Registry) (taken : List Lease)
    (s : Session Registry) : Prop where
  live : ∀ time, env.clock s.ticks ≤ time → ∀ key i l, s.store.Live time key i l ↔
    before.Live time key i l ∨
      l ∈ taken ∧ key = keyOf env l ∧ i = l.leaseId ∧ l.isExpired (.finite time) = false
  members : ∀ key, ∀ e ∈ s.store.scopes key, e ∈ before.scopes key ∨
    ∃ l ∈ taken, keyOf env l = key ∧ e = (l.leaseId, .lease l)
  listed : ∀ e ∈ s.store.index, e ∈ before.index ∨ ∃ l ∈ taken, e = (l.leaseId, keyOf env l)
  indexed : ∀ l ∈ taken, Dict.get? l.leaseId s.store.index = some (keyOf env l) ∨
    Dict.get? l.leaseId s.store.index = none ∧
      ∀ e ∈ s.store.scopes (keyOf env l), e.1 ≠ l.leaseId
  tokens : ∀ l ∈ taken, ∃ kind n, n < s.ticks ∧ l.leaseId = leaseIdOf kind (env.token n)
  distinct : (taken.map Lease.leaseId).Nodup

namespace Holding

variable {env : AdmissionEnv} {before : Registry} {taken rest : List Lease} {l : Lease}
  {s t : Session Registry} {kind : LeaseKind} {scope : LeaseScope}

lemma start (env : AdmissionEnv) (s : Session Registry) : Holding env s.store [] s := by
  constructor <;> simp

lemma quiet (h : Holding env before taken s) (hreg : Regular env before) (hq : Quiet s t) :
    Holding env before taken t := by
  obtain ⟨hlive, hmembers, hlisted, hindexed, htokens, hdistinct⟩ := h
  rw [← hq.store] at hlive hmembers hlisted hindexed
  refine ⟨?_, hmembers, hlisted, hindexed, ?_, hdistinct⟩
  · intro time htime
    exact hlive time ((hreg.clock hq.ticks).trans htime)
  · intro l hl
    obtain ⟨kind, n, hn, hid⟩ := htokens l hl
    exact ⟨kind, n, hn.trans_le hq.ticks, hid⟩

lemma fresh (h : Holding env before taken s) (hreg : Regular env before)
    (hg : Granted env kind scope s l t) :
    (∀ key, ∀ e ∈ s.store.scopes key, e.1 ≠ l.leaseId) ∧
      (∀ e ∈ s.store.index, e.1 ≠ l.leaseId) ∧ ∀ l' ∈ taken, l'.leaseId ≠ l.leaseId := by
  obtain ⟨n, hn, -, hid⟩ := hg.token
  have htaken : ∀ l' ∈ taken, l'.leaseId ≠ l.leaseId := by
    intro l' hl' heq
    obtain ⟨kind', m, hm, hid'⟩ := h.tokens l' hl'
    rw [hid, hid'] at heq
    have := hreg.token m n (leaseIdOf_injective heq)
    omega
  refine ⟨?_, ?_, htaken⟩
  · intro key e he
    rcases h.members key e he with hold | ⟨l', hl', -, rfl⟩
    · rw [hid]
      exact hreg.unused key e hold kind n
    · exact htaken l' hl'
  · intro e he
    rcases h.listed e he with hold | ⟨l', hl', rfl⟩
    · rw [hid]
      exact hreg.unlisted e hold kind n
    · exact htaken l' hl'

lemma grant (h : Holding env before taken s) (hreg : Regular env before)
    (hg : Granted env kind scope s l t) : Holding env before (taken ++ [l]) t := by
  obtain ⟨hscopes, hindex, htaken⟩ := h.fresh hreg hg
  obtain ⟨expired, hstore, hexpired⟩ := hg.write
  obtain ⟨n, hn, hlt, hid⟩ := hg.token
  have hticks : s.ticks ≤ t.ticks := hn.trans hlt.le
  have hmem : ∀ k e, e ∈ t.store.scopes k ↔
      e ∈ s.store.scopes k ∧ (k = keyOf env l → e.1 ∉ expired.map Prod.fst) ∨
        k = keyOf env l ∧ e = (l.leaseId, .lease l) := by
    intro k e
    rw [hstore]
    by_cases hk : k = keyOf env l
    · subst hk
      simp only [Registry.grant, Function.update_self, mem_grantScope (hscopes _), true_and,
        forall_const]
    · simp [Registry.grant, hk]
  have hindexEq : t.store.index =
      Dict.eraseAll (expired.map Prod.fst) s.store.index ++ [(l.leaseId, keyOf env l)] := by
    rw [hstore]
    exact grantIndex_eq hindex
  constructor
  case live =>
    intro time htime k i l'
    have hstill : (i, .lease l') ∈ s.store.scopes k → l'.isExpired (.finite time) = false →
        k = keyOf env l → i ∉ expired.map Prod.fst := by
      rintro hin hunexpired rfl hmem'
      obtain ⟨⟨j, l''⟩, hj, rfl⟩ := List.mem_map.mp hmem'
      obtain ⟨hin', m, hm, hexp⟩ := hexpired j l'' hj
      have hsame := Dict.value_unique (s.store.unique _) hin hin'
      cases hsame
      rw [Lease.expired_mono ((hreg.clock hm).trans htime) hexp] at hunexpired
      cases hunexpired
    have hold := h.live time ((hreg.clock hticks).trans htime) k i l'
    constructor
    · rintro ⟨hin, hunexpired⟩
      rcases (hmem _ _).mp hin with ⟨hin, -⟩ | ⟨rfl, heq⟩
      · rcases hold.mp ⟨hin, hunexpired⟩ with hbefore | ⟨hl', hrest⟩
        · exact .inl hbefore
        · exact .inr ⟨List.mem_append_left _ hl', hrest⟩
      · cases heq
        exact .inr ⟨by simp, rfl, rfl, hunexpired⟩
    · intro hcases
      have hcases' : s.store.Live time k i l' ∨
          (l' = l ∧ k = keyOf env l' ∧ i = l'.leaseId ∧ l'.isExpired (.finite time) = false) := by
        rcases hcases with hbefore | ⟨hl', hrest⟩
        · exact .inl (hold.mpr (.inl hbefore))
        · rcases List.mem_append.mp hl' with hl' | hl'
          · exact .inl (hold.mpr (.inr ⟨hl', hrest⟩))
          · exact .inr ⟨List.mem_singleton.mp hl', hrest⟩
      rcases hcases' with ⟨hin, hunexpired⟩ | ⟨rfl, rfl, rfl, hunexpired⟩
      · exact ⟨(hmem _ _).mpr (.inl ⟨hin, hstill hin hunexpired⟩), hunexpired⟩
      · exact ⟨(hmem _ _).mpr (.inr ⟨rfl, rfl⟩), hunexpired⟩
  case members =>
    intro k e he
    rcases (hmem _ _).mp he with ⟨hin, -⟩ | ⟨rfl, rfl⟩
    · rcases h.members k e hin with hold | ⟨l', hl', hrest⟩
      · exact .inl hold
      · exact .inr ⟨l', List.mem_append_left _ hl', hrest⟩
    · exact .inr ⟨l, by simp, rfl, rfl⟩
  case listed =>
    intro e he
    rw [hindexEq, List.mem_append, Dict.mem_eraseAll, List.mem_singleton] at he
    rcases he with ⟨hin, -⟩ | rfl
    · rcases h.listed e hin with hold | ⟨l', hl', hrest⟩
      · exact .inl hold
      · exact .inr ⟨l', List.mem_append_left _ hl', hrest⟩
    · exact .inr ⟨l, by simp, rfl⟩
  case indexed =>
    intro l' hl'
    rw [hindexEq, Dict.get?_append]
    rcases List.mem_append.mp hl' with hl' | hl'
    · have hne : l.leaseId ≠ l'.leaseId := (htaken l' hl').symm
      rw [if_neg hne, Option.or_none]
      have hkept : ∀ e ∈ t.store.scopes (keyOf env l'), e.1 = l'.leaseId →
          e ∈ s.store.scopes (keyOf env l') := by
        intro e he heq
        rcases (hmem _ _).mp he with ⟨hin, -⟩ | ⟨-, rfl⟩
        · exact hin
        · exact absurd heq hne
      by_cases hexp : l'.leaseId ∈ expired.map Prod.fst
      · -- pruned from its hash and from the index at once
        right
        have hkey : keyOf env l' = keyOf env l := by
          obtain ⟨⟨j, l''⟩, hj, hjid⟩ := List.mem_map.mp hexp
          obtain ⟨hin, -⟩ := hexpired j l'' hj
          rcases h.members _ _ hin with hold | ⟨l₁, hl₁, hkey₁, heq⟩
          · obtain ⟨kind', m, -, hid'⟩ := h.tokens l' hl'
            exact absurd (hjid.trans hid') (hreg.unused _ _ hold kind' m)
          · cases heq
            have hsame : l'' = l' := List.inj_on_of_nodup_map h.distinct hl₁ hl' hjid
            rw [← hsame, hkey₁]
        constructor
        · rw [Dict.get?_eq_none]
          intro e he heq
          rw [Dict.mem_eraseAll] at he
          rw [heq] at he
          exact he.2 hexp
        · intro e he heq
          rcases (hmem _ _).mp he with ⟨-, hnot⟩ | ⟨-, rfl⟩
          · rw [heq] at hnot
            exact hnot hkey hexp
          · exact hne heq
      · rw [Dict.get?_eraseAll _ hexp]
        rcases h.indexed l' hl' with hfound | ⟨hnone, habsent⟩
        · exact .inl hfound
        · exact .inr ⟨hnone, fun e he heq => habsent e (hkept e he heq) heq⟩
    · rw [List.mem_singleton] at hl'
      subst hl'
      left
      have hnone : Dict.get? l'.leaseId (Dict.eraseAll (expired.map Prod.fst) s.store.index) =
          none := by
        rw [Dict.get?_eq_none]
        intro e he
        exact hindex e (Dict.mem_eraseAll.mp he).1
      rw [hnone, if_pos rfl, Option.none_or]
  case tokens =>
    intro l' hl'
    rcases List.mem_append.mp hl' with hl' | hl'
    · obtain ⟨kind', m, hm, hid'⟩ := h.tokens l' hl'
      exact ⟨kind', m, hm.trans_le hticks, hid'⟩
    · rw [List.mem_singleton] at hl'
      subst hl'
      exact ⟨kind, n, hlt, hid⟩
  case distinct =>
    rw [List.map_append, List.map_singleton, List.nodup_append]
    refine ⟨h.distinct, List.nodup_singleton _, ?_⟩
    intro i hi j hj
    obtain ⟨l', hl', rfl⟩ := List.mem_map.mp hi
    rw [List.mem_singleton] at hj
    rw [hj]
    exact htaken l' hl'

lemma without_spec (h : Holding env before (l :: rest) s) :
    (∀ k e, e ∈ (s.store.without l.leaseId).scopes k ↔
      e ∈ s.store.scopes k ∧ (k = keyOf env l → e.1 ≠ l.leaseId)) ∧
      (∀ e, e ∈ (s.store.without l.leaseId).index ↔ e ∈ s.store.index ∧ e.1 ≠ l.leaseId) ∧
      ∀ i ≠ l.leaseId, Dict.get? i (s.store.without l.leaseId).index =
        Dict.get? i s.store.index := by
  simp only [Registry.without]
  rcases h.indexed l (List.mem_cons_self ..) with hfound | ⟨hnone, habsent⟩
  · rw [hfound]
    refine ⟨?_, ?_, ?_⟩
    · intro k e
      by_cases hk : k = keyOf env l
      · subst hk
        simp [Registry.drop]
      · simp [Registry.drop, hk]
    · intro e
      exact Dict.mem_erase
    · intro i hi
      exact Dict.get?_erase_of_ne _ hi
  · rw [hnone]
    refine ⟨?_, ?_, fun _ _ => rfl⟩
    · intro k e
      constructor
      · intro he
        refine ⟨he, ?_⟩
        rintro rfl
        exact habsent e he
      · exact And.left
    · intro e
      constructor
      · intro he
        exact ⟨he, Dict.get?_eq_none.mp hnone e he⟩
      · exact And.left

lemma release (h : Holding env before (l :: rest) s) (hreg : Regular env before)
    (hstore : t.store = s.store.without l.leaseId) (hticks : s.ticks ≤ t.ticks) :
    Holding env before rest t := by
  obtain ⟨hscopes, hindex, hget⟩ := h.without_spec
  rw [← hstore] at hscopes hindex hget
  have hdistinct := List.nodup_cons.mp (by simpa only [List.map_cons] using h.distinct)
  have hother : ∀ l' ∈ rest, l'.leaseId ≠ l.leaseId := by
    intro l' hl' heq
    exact hdistinct.1 (List.mem_map.mpr ⟨l', hl', heq⟩)
  obtain ⟨kind, n, -, hid⟩ := h.tokens l (List.mem_cons_self ..)
  constructor
  case live =>
    intro time htime k i l'
    have hold := h.live time ((hreg.clock hticks).trans htime) k i l'
    constructor
    · rintro ⟨hin, hunexpired⟩
      obtain ⟨hin, hnot⟩ := (hscopes _ _).mp hin
      rcases hold.mp ⟨hin, hunexpired⟩ with hbefore | ⟨hl', hkey, hi, hrest⟩
      · exact .inl hbefore
      · rcases List.mem_cons.mp hl' with rfl | hl'
        · exact absurd hi (hnot hkey)
        · exact .inr ⟨hl', hkey, hi, hrest⟩
    · rintro (hbefore | ⟨hl', hkey, rfl, hunexpired⟩)
      · obtain ⟨hin, hunexpired⟩ := hold.mpr (.inl hbefore)
        refine ⟨(hscopes _ _).mpr ⟨hin, fun _ => ?_⟩, hunexpired⟩
        rw [hid]
        exact hreg.unused _ _ hbefore.1 kind n
      · obtain ⟨hin, hunexpired⟩ :=
          hold.mpr (.inr ⟨List.mem_cons_of_mem _ hl', hkey, rfl, hunexpired⟩)
        exact ⟨(hscopes _ _).mpr ⟨hin, fun _ => hother l' hl'⟩, hunexpired⟩
  case members =>
    intro k e he
    obtain ⟨hin, hnot⟩ := (hscopes _ _).mp he
    rcases h.members k e hin with hold | ⟨l', hl', hkey, rfl⟩
    · exact .inl hold
    · rcases List.mem_cons.mp hl' with rfl | hl'
      · exact absurd rfl (hnot hkey.symm)
      · exact .inr ⟨l', hl', hkey, rfl⟩
  case listed =>
    intro e he
    obtain ⟨hin, hnot⟩ := (hindex _).mp he
    rcases h.listed e hin with hold | ⟨l', hl', rfl⟩
    · exact .inl hold
    · rcases List.mem_cons.mp hl' with rfl | hl'
      · exact absurd rfl hnot
      · exact .inr ⟨l', hl', rfl⟩
  case indexed =>
    intro l' hl'
    rw [hget _ (hother l' hl')]
    rcases h.indexed l' (List.mem_cons_of_mem _ hl') with hfound | ⟨hnone, habsent⟩
    · exact .inl hfound
    · exact .inr ⟨hnone, fun e he => habsent e ((hscopes _ _).mp he).1⟩
  case tokens =>
    intro l' hl'
    obtain ⟨kind', m, hm, hid'⟩ := h.tokens l' (List.mem_cons_of_mem _ hl')
    exact ⟨kind', m, hm.trans_le hticks, hid'⟩
  case distinct => exact hdistinct.2

end Holding

/-! ### The steps of admission -/

section Steps

variable {env : AdmissionEnv} {req : AdmissionRequest} {before : Registry} {taken : List Lease}
  {budget : Lease} {p : Priced} {s : Session Registry}

lemma strip_leaseIdOf (kind : LeaseKind) (token : String) : strip (leaseIdOf kind token) ≠ "" := by
  intro h
  have hspace := isSpace_of_strip h
  cases kind
  case budget =>
    have hb := hspace 'b' (by simp [leaseIdOf, LeaseKind.tag, LeaseKind.value])
    simp [isSpace] at hb
  case concurrency =>
    have hc := hspace 'c' (by simp [leaseIdOf, LeaseKind.tag, LeaseKind.value])
    simp [isSpace] at hc

lemma collect_releases_ends (hreg : Regular env before) (hrel : ReleasesSucceed env)
    (h : Holding env before taken s) (o : Oracle Raised) :
    Ends (collect (releaseOrNote env) taken) o s (fun _ t => Holding env before [] t)
      (fun _ _ => False) := by
  induction taken generalizing s with
  | nil => exact ends_pure.mpr h
  | cons l rest ih =>
    obtain ⟨kind, n, -, hid⟩ := h.tokens l (List.mem_cons_self ..)
    have hstrip : strip l.leaseId ≠ "" := by
      rw [hid]
      exact strip_leaseIdOf kind _
    have hrest : ∀ t note, t.store = s.store.without l.leaseId → s.ticks ≤ t.ticks →
        Ends (collect (releaseOrNote env) rest >>= fun notes => pure (note :: notes)) o t
          (fun _ u => Holding env before [] u) (fun _ _ => False) := by
      intro t note hstore hticks
      rw [ends_bind]
      refine (ih (h.release hreg hstore hticks)).mono ?_ fun _ _ h => h
      intro notes u hu
      exact ends_pure.mpr hu
    simp only [collect, releaseOrNote]
    rw [ends_bind, ends_bind]
    apply ends_caught
    have hrun := release_ends (s := s) hrel hstrip o
    refine hrun.mono ?_ ?_
    · rintro released t ⟨hstore, hticks⟩
      simp only [ends_pure]
      exact hrest t none hstore hticks
    · rintro e t ⟨⟨d, rfl⟩, hstore, hticks⟩
      refine ⟨?_, fun hnone => by simp at hnone⟩
      intro d' _
      simp only [ends_pure]
      exact hrest t _ hstore hticks

lemma releaseAll_ends (hreg : Regular env before) (hrel : ReleasesSucceed env)
    (h : Holding env before taken s) (o : Oracle Raised) :
    Ends (releaseAll env taken) o s (fun _ t => Holding env before [] t) (fun _ _ => False) := by
  simp only [releaseAll]
  rw [ends_bind]
  refine (collect_releases_ends hreg hrel h o).mono ?_ fun _ _ h => h
  intro notes t ht
  exact ends_pure.mpr ht

lemma takeScopes_ends (hreg : Regular env before) (httl : 0 < req.ttlSeconds)
    (scopes : List LeaseScope) (h : Holding env before (budget :: taken) s)
    (hkinds : ∀ l ∈ taken, l.kind = .concurrency) :
    Ends (takeScopes env req scopes taken) env.reserving s
      (fun x t => Holding env before (budget :: x.1) t ∧ (∀ l ∈ x.1, l.kind = .concurrency) ∧
        (x.2 = none → x.1.map Lease.scope = taken.map Lease.scope ++ scopes))
      (fun e _ => e = .overflow ∧ floatOfInt req.slots = none ∧ scopes ≠ []) := by
  induction scopes generalizing taken s with
  | nil => exact ends_pure.mpr ⟨h, hkinds, fun _ => by simp⟩
  | cons scope rest ih =>
    simp only [takeScopes]
    rw [ends_bind]
    refine ends_caught ((takeSlots_ends httl scope).mono ?_ ?_)
    · intro l t hg
      have hheld : Holding env before (budget :: (taken ++ [l])) t := h.grant hreg hg
      have hkinds' : ∀ l' ∈ taken ++ [l], l'.kind = .concurrency := by
        intro l' hl'
        rcases List.mem_append.mp hl' with hl' | hl'
        · exact hkinds l' hl'
        · rw [List.mem_singleton.mp hl', hg.kind_eq]
      refine (ih hheld hkinds').mono ?_ ?_
      · rintro x u ⟨hx, hk, hscopes⟩
        refine ⟨hx, hk, ?_⟩
        intro hnone
        rw [hscopes hnone, List.map_append, List.map_singleton, hg.scope_eq, List.append_assoc,
          List.singleton_append]
      · rintro e u ⟨he, hslots, -⟩
        exact ⟨he, hslots, by simp⟩
    · rintro e t ⟨hquiet, ⟨d, rfl⟩ | ⟨rfl, hslots⟩⟩
      · refine ⟨?_, fun hnone => by simp at hnone⟩
        intro d' _
        simp only [ends_pure]
        exact ⟨h.quiet hreg hquiet, hkinds, fun hnone => by simp at hnone⟩
      · exact ⟨fun d hd => by simp at hd, fun _ => ⟨rfl, hslots, by simp⟩⟩

lemma resolve_error {providerClass : ProviderClass} {e : Raised}
    (hclass : providerClassForModel env.rt req.model = .ok providerClass)
    (h : resolveReservation env req.model req.amount req.costSource = .error e ∨
      resolveHardCapUsd env req.model req.hardCapUsd = .error e) : ∃ d, e = .denied d := by
  simp only [resolveReservation, resolveHardCapUsd, hclass, refuse, Except.mapError, Bind.bind,
    Except.bind] at h
  cases providerClass <;> rcases h with h | h <;> grind

lemma price_error {e : Raised} (h : price env req = .error e) : ∃ d, e = .denied d := by
  simp only [price] at h
  split at h
  · cases h
    exact ⟨_, rfl⟩
  · cases hclass : providerClassForModel env.rt req.model with
    | error d =>
      rw [hclass] at h
      cases h
      exact ⟨_, rfl⟩
    | ok providerClass =>
      simp only [hclass, Except.mapError, Bind.bind, Except.bind] at h
      split at h
      · cases h
        exact resolve_error hclass (.inl ‹_›)
      · split at h
        · cases h
          exact resolve_error hclass (.inr ‹_›)
        · split at h
          · cases h
            exact ⟨_, rfl⟩
          · cases h

/-- Two exceptions are neither admission errors nor raised inside a handler: the budget lease is
refused for a lifetime whose text cannot be made, or the number of slots has no float and a scope
asks for it once the budget lease is taken. -/
def Escapes (env : AdmissionEnv) (req : AdmissionRequest) (s : Session Registry) : Prop :=
  ∃ p, price env req = .ok p ∧ (LifetimeUnprintable env req p s ∨
    floatOfInt req.slots = none ∧
      (∃ scopes, req.resolvedConcurrencyScopes env = .ok scopes ∧ scopes ≠ []) ∧
      ∃ l t, takeBudget env req p env.reserving s = (.ok l, t))

/-- All that was asked for is held and recorded, or a denial and nothing is held. -/
def AllOrNothing (env : AdmissionEnv) (req : AdmissionRequest) (s : Session Registry) :
    Except Raised Admission × Session Registry → Prop
  | (.ok a, t) =>
    a.record.validate env.rt = .ok () ∧
      a.record.leaseIds = (a.budgetLease :: a.concurrencyLeases).map Lease.leaseId ∧
      a.budgetLease.kind = .budget ∧ req.resolvedBudgetScope = .ok a.budgetLease.scope ∧
      (∀ l ∈ a.concurrencyLeases, l.kind = .concurrency) ∧
      req.resolvedConcurrencyScopes env = .ok (a.concurrencyLeases.map Lease.scope) ∧
      ∀ l ∈ a.budgetLease :: a.concurrencyLeases, ∀ time, env.clock t.ticks ≤ time →
        l.isExpired (.finite time) = false → t.store.Live time (keyOf env l) l.leaseId l
  | (.error (.denied _), t) =>
    ∀ time, env.clock t.ticks ≤ time → ∀ key i l,
      t.store.Live time key i l ↔ s.store.Live time key i l
  | (.error _, _) => False

lemma Holding.nothing {d : Denial} {t : Session Registry} (h : Holding env s.store [] t) :
    AllOrNothing env req s (.error (.denied d), t) := by
  intro time htime key i l
  have := h.live time htime key i l
  simpa using this

lemma takeConcurrency_ends (hreg : Regular env before) (httl : 0 < req.ttlSeconds)
    (h : Holding env before [budget] s) :
    Ends (takeConcurrency env req) env.reserving s
      (fun x t => Holding env before (budget :: x.1) t ∧ (∀ l ∈ x.1, l.kind = .concurrency) ∧
        (x.2 = none → req.resolvedConcurrencyScopes env = .ok (x.1.map Lease.scope)))
      (fun e _ => e = .overflow ∧ floatOfInt req.slots = none ∧
        ∃ scopes, req.resolvedConcurrencyScopes env = .ok scopes ∧ scopes ≠ []) := by
  simp only [takeConcurrency]
  split
  · rename_i scopes hscopes
    refine (takeScopes_ends hreg httl scopes h (by simp)).mono ?_ ?_
    · rintro x t ⟨hheld, hkinds, hall⟩
      refine ⟨hheld, hkinds, ?_⟩
      intro hnone
      rw [hscopes, hall hnone, List.map_nil, List.nil_append]
    · rintro e t ⟨he, hslots, hne⟩
      exact ⟨he, hslots, scopes, hscopes, hne⟩
  · rw [ends_pure]
    exact ⟨h, by simp, fun hnone => by simp at hnone⟩

lemma admitRequest_ends (hreg : Regular env s.store) (hrel : ReleasesSucceed env) :
    Ends (admitRequest env req) env.reserving s
      (fun a t => AllOrNothing env req s (.ok a, t))
      (fun e t => AllOrNothing env req s (.error e, t) ∨ Escapes env req s) := by
  simp only [admitRequest]
  rw [ends_bind]
  refine ends_lift ?_ ?_
  swap
  · intro e he
    obtain ⟨d, rfl⟩ := price_error he
    exact .inl (Holding.start env s).nothing
  intro p hp
  rw [ends_bind]
  refine ends_mapError (ends_of_run ?_ ?_)
  swap
  · intro e t hrun
    obtain ⟨hquiet, ⟨d, rfl⟩ | ⟨rfl, hbad⟩⟩ := takeBudget_ends.of_error hrun
    · exact .inl ((Holding.start env s).quiet hreg hquiet).nothing
    · exact .inr ⟨p, hp, .inl hbad⟩
  intro budget t hrun
  obtain ⟨httl, scope, hscope, hgranted⟩ := takeBudget_ends.of_ok hrun
  have hheld : Holding env s.store [budget] t := (Holding.start env s).grant hreg hgranted
  rw [ends_bind]
  refine (takeConcurrency_ends hreg httl hheld).mono ?_ ?_
  swap
  · rintro e u ⟨rfl, hslots, hscopes⟩
    exact .inr ⟨p, hp, .inr ⟨hslots, hscopes, budget, t, hrun⟩⟩
  rintro ⟨slots, failed⟩ u ⟨hheld, hkinds, hscopes⟩
  have hunwind : ∀ d : String → Denial,
      Ends (releaseAll env (budget :: slots) >>= fun unwind => raise (.denied (d unwind)))
        env.reserving u (fun a t => AllOrNothing env req s (.ok a, t))
        (fun e t => AllOrNothing env req s (.error e, t) ∨ Escapes env req s) := by
    intro d
    rw [ends_bind]
    refine (releaseAll_ends hreg hrel hheld env.reserving).mono ?_ fun _ _ h => h.elim
    intro unwind v hv
    rw [ends_raise]
    exact .inl hv.nothing
  cases failed with
  | some d => exact hunwind _
  | none =>
    dsimp only
    split
    · rename_i hvalid
      rw [ends_pure]
      refine ⟨hvalid, rfl, hgranted.kind_eq, ?_, hkinds, hscopes rfl, ?_⟩
      · rw [hscope, hgranted.scope_eq]
      · intro l hl time htime hunexpired
        exact (hheld.live time htime _ _ l).mpr (.inr ⟨hl, rfl, rfl, hunexpired⟩)
    · exact hunwind _

lemma admitRequest_escapes (h : Escapes env req s) :
    ∃ t, admitRequest env req env.reserving s = (.error .overflow, t) ∨
      admitRequest env req env.reserving s = (.error .digits, t) := by
  obtain ⟨p, hp, hcases⟩ := h
  have hprice : (lift (price env req) : RegistryScript Priced) env.reserving s = (.ok p, s) := by
    rw [hp]
    rfl
  simp only [admitRequest]
  rw [run_bind_ok hprice]
  rcases hcases with ⟨r, t, hrun, hbad⟩ | ⟨hslots, ⟨scopes, hscopes, hne⟩, l, t, hrun⟩
  · have hbudget : takeBudget env req p env.reserving s = (.error .digits, t) := by
      rw [takeBudget_eq, run_bind_ok hrun]
      simp only [reserve, if_pos hbad]
      rfl
    refine ⟨t, .inr (run_bind_error ?_ _)⟩
    simp only [mapError, hbudget]
    rfl
  · obtain ⟨scope, rest, rfl⟩ := List.exists_cons_of_ne_nil hne
    have hbudget : (mapError (.denying (.budget req.runId req.model)) (takeBudget env req p))
        env.reserving s = (.ok l, t) := by
      simp only [mapError, hrun]
    have hslot : takeSlots env req scope env.reserving t = (.error .overflow, t) := by
      simp only [takeSlots, reserveConcurrency, hslots]
      rfl
    have hscope : takeConcurrency env req env.reserving t = (.error .overflow, t) := by
      simp only [takeConcurrency, hscopes, takeScopes]
      refine run_bind_error ?_ _
      simp only [caught, hslot]
      rfl
    refine ⟨t, .inl ?_⟩
    rw [run_bind_ok hbudget, run_bind_error hscope]

/-- `admit` is all or nothing exactly when neither exception of another class escapes it. -/
theorem admit_all_or_nothing (hreg : Regular env s.store) (hrel : ReleasesSucceed env) :
    AllOrNothing env req s (admitRequest env req env.reserving s) ↔ ¬ Escapes env req s := by
  constructor
  · intro hall hescapes
    obtain ⟨t, hrun | hrun⟩ := admitRequest_escapes hescapes
    · rw [hrun] at hall
      exact hall
    · rw [hrun] at hall
      exact hall
  · intro hstays
    have hends : Ends (admitRequest env req) env.reserving s _ _ := admitRequest_ends hreg hrel
    rcases hrun : admitRequest env req env.reserving s with ⟨r, t⟩
    cases r with
    | ok a => exact hends.of_ok hrun
    | error e => exact (hends.of_error hrun).resolve_right hstays

end Steps

/-! ### Instances -/

/-- Seconds pass, ids are new, nothing fails, and no variable is set. -/
def quietEnv : AdmissionEnv where
  ns := "finops:lease"
  maxRetries := 8
  retries_pos := by decide
  clock n := n
  token n := String.ofList (List.replicate n 'a')
  lost _ := false
  failure _ := none
  releaseLost _ := false
  releaseFailure _ := none
  environ _ := none
  rt :=
    { loads := fun _ => .ok .null
      repr := fun _ => ""
      upper := id
      lower := id }

/-- A subscription run with a cap on its window and on the fleet. -/
def subscriptionRun (slots : ℤ) : AdmissionRequest where
  runId := "run"
  model := "openai/gpt-6-astra"
  worktreeIdentity := "worktree"
  resultNamespace := "results"
  budgetCap := some (.finite 100)
  slots := slots
  concurrencyCaps _ := some (.finite 8)

def unused : Session Registry := { store := .empty }

lemma quietEnv_regular : Regular quietEnv unused.store := by
  constructor
  · intro m n hmn
    show (m : ℚ) ≤ n
    exact_mod_cast hmn
  · intro m n h
    have hlength := congrArg (fun s => s.toList.length) h
    simpa [quietEnv] using hlength
  · intro key e he
    cases he
  · intro e he
    cases he

theorem admit_all_or_nothing_subscription : AllOrNothing quietEnv (subscriptionRun 1) unused
    (admitRequest quietEnv (subscriptionRun 1) quietEnv.reserving unused) := by
  refine (admit_all_or_nothing quietEnv_regular ⟨fun _ => rfl, fun _ => rfl⟩).mpr ?_
  rintro ⟨p, -, ⟨r, t, hrun, -, httl, -⟩ | ⟨hslots, -⟩⟩
  · obtain ⟨-, -, -, hr, -⟩ := budgetRequest_ends.of_ok hrun
    rw [hr] at httl
    exact absurd httl (by decide)
  · have hone : floatOfInt 1 ≠ none := by decide +kernel
    exact hone hslots

/-- The run ended in an `OverflowError` with a budget lease still live at 100 seconds. -/
def leavesBudget (run : Except Raised Admission × Session Registry) : Bool :=
  match run.1 with
  | .error .overflow =>
    match run.2.store.scopes "finops:lease:budget:provider:openai" with
    | [(i, .lease l)] => i == "bud_aaa" && !l.isExpired (.finite 100)
    | _               => false
  | _ => false

lemma leavesBudget_spec {env : AdmissionEnv} {req : AdmissionRequest} {s : Session Registry}
    {run : Except Raised Admission × Session Registry} (h : leavesBudget run = true) :
    ¬ AllOrNothing env req s run ∧ ∃ l,
      run.2.store.Live 100 "finops:lease:budget:provider:openai" "bud_aaa" l := by
  obtain ⟨r, t⟩ := run
  simp only [leavesBudget] at h
  split at h
  · refine ⟨id, ?_⟩
    split at h
    · rename_i i l hscopes
      simp only [Bool.and_eq_true, beq_iff_eq, Bool.not_eq_true'] at h
      obtain ⟨rfl, hlive⟩ := h
      refine ⟨l, ?_, hlive⟩
      rw [hscopes]
      exact List.mem_singleton_self _
    · cases h
  · cases h

/-- More slots than a float can count: the exception escapes and the budget lease stays. -/
theorem admit_leaks_budget :
    ¬ AllOrNothing quietEnv (subscriptionRun (10 ^ 400)) unused
        (admitRequest quietEnv (subscriptionRun (10 ^ 400)) quietEnv.reserving unused) ∧
      ∃ l, (admitRequest quietEnv (subscriptionRun (10 ^ 400)) quietEnv.reserving
        unused).2.store.Live 100 "finops:lease:budget:provider:openai" "bud_aaa" l := by
  refine leavesBudget_spec ?_
  decide +kernel

end AgenticDynamics.Control
