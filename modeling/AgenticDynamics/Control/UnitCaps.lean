import AgenticDynamics.Control.LeaseTenure
import AgenticDynamics.Control.AdmissionSafety

/-!
# What is added up against a cap

The unit of a budget lease follows from the model it is for, its scope from the campaign or the
phase. The hash of a scope holds the leases of either unit, and a reservation is compared with the
sum of them all.
-/

namespace AgenticDynamics.Control

open Python Script Optimistic

/-! ### Entry points -/

/-- `reserve_concurrency` up to its call of `_reserve`. -/
def slotsRequest (env : AdmissionEnv) (scope : LeaseScope) (count : ℤ) (runId : String)
    (hardCap : Option PyFloat) (ttlSeconds : ℤ) (metadata : Dict Json) :
    RegistryScript Reservation :=
  match floatOfInt count with
  | none   => raise .overflow
  | some q => do
    let slots ← lift (refuse (requireAmount "count" (.finite q)))
    let cap ← resolveCap env .concurrency scope hardCap
    pure
      { kind := .concurrency, scope, providerClass := .subscription, amount := slots
        unit := unitSlots, hardCap := cap, runId, costSource := none, ttlSeconds, metadata }

/-- A call of `admit` or of `concurrency_admitted`. -/
inductive AdmissionCall
  | request (req : AdmissionRequest)
  | slots (scope : LeaseScope) (count : ℤ) (runId : String) (ttlSeconds : ℤ)
      (metadata : Dict Json)

/-- The request of `phase_admission`. -/
def phaseRequest (scope : LeaseScope) (specName phaseName token model worktreeIdentity
    resultNamespace : String) (ttlSeconds : ℤ) : AdmissionRequest where
  runId := specName ++ ":" ++ phaseName ++ ":" ++ token
  model := model
  worktreeIdentity := worktreeIdentity
  resultNamespace := resultNamespace
  budgetScope := some scope
  concurrencyScopes := [scope]
  ttlSeconds := ttlSeconds
  metadata := [("spec", .str specName), ("phase", .str phaseName)]

/-- What a call hands to `_reserve`, whatever the caps and the other leases are then. -/
inductive AdmissionCall.Reserves (env : AdmissionEnv) : AdmissionCall → Reservation → Prop
  | budget {req p s r t} (hprice : price env req = .ok p)
      (hrun : budgetRequest env req p env.reserving s = (.ok r, t)) : Reserves env (.request req) r
  | slots {req scopes scope s r t} (hscopes : req.resolvedConcurrencyScopes env = .ok scopes)
      (hscope : scope ∈ scopes)
      (hrun : slotsRequest env scope req.slots req.runId (req.concurrencyCaps scope)
        req.ttlSeconds (req.leaseMetadata "concurrency") env.reserving s = (.ok r, t)) :
      Reserves env (.request req) r
  | only {scope count runId ttlSeconds metadata s r t}
      (hrun : slotsRequest env scope count runId none ttlSeconds metadata env.reserving s =
        (.ok r, t)) : Reserves env (.slots scope count runId ttlSeconds metadata) r

/-- The reservations of some calls, each in its environment. -/
def demandOf (calls : Set (AdmissionEnv × AdmissionCall)) : Set Reservation :=
  {r | ∃ call ∈ calls, call.2.Reserves call.1 r}

/-- The call may ask for budget in the scope, for a model of the class. -/
def AdmissionCall.Asks (env : AdmissionEnv) (call : AdmissionCall) (scope : LeaseScope)
    (providerClass : ProviderClass) : Prop :=
  ∃ r, call.Reserves env r ∧ r.check = .ok () ∧ r.kind = .budget ∧ r.scope = scope ∧
    r.providerClass = providerClass

/-- The call may be granted budget in the scope, for a model of the class, when nothing else is
outstanding there. -/
def AdmissionCall.Gets (env : AdmissionEnv) (call : AdmissionCall) (scope : LeaseScope)
    (providerClass : ProviderClass) : Prop :=
  ∃ r, call.Reserves env r ∧ r.check = .ok () ∧ r.kind = .budget ∧ r.scope = scope ∧
    r.providerClass = providerClass ∧ r.fits [] = true ∧ (floatOfInt r.ttlSeconds).isSome

/-- Whatever is compared with a cap is a sum of leases of the cap's unit. -/
def Net.UnitsAgree (n : Net) : Prop :=
  ∀ i r w live expired, n.clients i = .counted r w live expired → ∀ l ∈ live, l.unit = r.unit

section Units

variable {env : AdmissionEnv} {call : AdmissionCall} {r r' : Reservation}

/-! ### The unit of a reservation -/

lemma slotsRequest_ends {s : Session Registry} {scope : LeaseScope} {count : ℤ} {runId : String}
    {hardCap : Option PyFloat} {ttlSeconds : ℤ} {metadata : Dict Json} :
    Ends (slotsRequest env scope count runId hardCap ttlSeconds metadata) env.reserving s
      (fun r _ => r.kind = .concurrency ∧ r.unit = unitSlots) (fun _ _ => True) := by
  unfold slotsRequest
  split
  · rw [ends_raise]
    trivial
  · rw [ends_bind]
    refine ends_check ?_ fun _ => trivial
    intro slots _
    rw [ends_bind]
    refine (resolveCap_ends .concurrency scope hardCap).mono ?_ fun _ _ _ => trivial
    intro cap t _
    rw [ends_pure]
    exact ⟨rfl, rfl⟩

lemma AdmissionCall.Reserves.unit (h : call.Reserves env r) :
    r.kind = .concurrency ∧ r.unit = unitSlots ∨
      r.kind = .budget ∧ r.unit = budgetUnit r.providerClass := by
  cases h with
  | budget hprice hrun =>
    obtain ⟨-, hkind, -, -, hclass, hunit⟩ := budgetRequest_ends.of_ok hrun
    exact .inr ⟨hkind, by rw [hunit, hclass]⟩
  | slots hscopes hscope hrun => exact .inl (slotsRequest_ends.of_ok hrun)
  | only hrun => exact .inl (slotsRequest_ends.of_ok hrun)

lemma budgetUnit_injective {c c' : ProviderClass} (h : budgetUnit c = budgetUnit c') : c = c' := by
  cases c <;> cases c' <;> simp [budgetUnit] at h ⊢

/-! ### The key of a scope -/

lemma LeaseKind.value_injective {k k' : LeaseKind} (h : k.value = k'.value) : k = k' := by
  cases k <;> cases k' <;> first | rfl | exact absurd h (by decide)

lemma LeaseKind.colon_notMem (k : LeaseKind) : ':' ∉ k.value.toList := by
  cases k <;> decide

lemma ScopeKind.value_injective {k k' : ScopeKind} (h : k.value = k'.value) : k = k' := by
  cases k <;> cases k' <;> first | rfl | exact absurd h (by decide)

lemma ScopeKind.colon_notMem (k : ScopeKind) : ':' ∉ k.value.toList := by
  cases k <;> decide

lemma append_colon_inj {a a' b b' : List Char} (ha : ':' ∉ a) (ha' : ':' ∉ a')
    (h : a ++ ':' :: b = a' ++ ':' :: b') : a = a' ∧ b = b' := by
  induction a generalizing a' with
  | nil =>
    cases a' with
    | nil => exact ⟨rfl, List.tail_eq_of_cons_eq h⟩
    | cons c a' =>
      rw [List.nil_append, List.cons_append] at h
      exact absurd (List.head_eq_of_cons_eq h ▸ List.mem_cons_self ..) ha'
  | cons c a ih =>
    cases a' with
    | nil =>
      rw [List.nil_append, List.cons_append] at h
      exact absurd (List.head_eq_of_cons_eq h ▸ List.mem_cons_self ..) ha
    | cons c' a' =>
      rw [List.cons_append, List.cons_append] at h
      obtain ⟨rfl, hrest⟩ := List.cons_eq_cons.mp h
      obtain ⟨rfl, hb⟩ := ih (fun hc => ha (List.mem_cons_of_mem _ hc))
        (fun hc => ha' (List.mem_cons_of_mem _ hc)) hrest
      exact ⟨rfl, hb⟩

lemma scopeKey_toList (ns : String) (k : LeaseKind) (s : LeaseScope) :
    (scopeKey ns k s).toList =
      ns.toList ++ ':' :: (k.value.toList ++ ':' :: (s.kind.value.toList ++ ':' :: s.name.toList)) := by
  have hcolon : (":" : String).toList = [':'] := rfl
  simp [scopeKey, LeaseScope.token, hcolon]

lemma scopeKey_injective {ns : String} {k k' : LeaseKind} {s s' : LeaseScope}
    (h : scopeKey ns k s = scopeKey ns k' s') : k = k' ∧ s = s' := by
  have hlist := congrArg String.toList h
  rw [scopeKey_toList, scopeKey_toList] at hlist
  have hrest := List.cons_injective (List.append_cancel_left hlist)
  obtain ⟨hk, hscope⟩ := append_colon_inj k.colon_notMem k'.colon_notMem hrest
  obtain ⟨hkind, hname⟩ := append_colon_inj s.kind.colon_notMem s'.kind.colon_notMem hscope
  refine ⟨LeaseKind.value_injective (String.toList_inj.mp hk), ?_⟩
  have hkind := ScopeKind.value_injective (String.toList_inj.mp hkind)
  have hname := String.toList_inj.mp hname
  cases s
  cases s'
  simp only at hkind hname
  simp only [hkind, hname]

/-! ### Two leases of one scope -/

lemma Reservation.lease?_live {token : String} {t : Reading} {l : Lease}
    (hcheck : r.check = .ok ()) (h : r.lease? token t.float = some l) :
    l.isExpired t.float = false := by
  obtain ⟨ttl, httl, rfl⟩ := Reservation.lease?_eq_some h
  have hpos : 0 < r.ttlSeconds := by
    simp only [Reservation.check] at hcheck
    split_ifs at hcheck with _ h0
    exact not_le.mp h0
  have hlater : 0 < ttl := by
    simp only [floatOfInt, Option.ite_none_left_eq_some, Option.some.injEq] at httl
    obtain ⟨-, rfl⟩ := httl
    have hq : (0 : ℚ) < r.ttlSeconds := by exact_mod_cast hpos
    have hmax : (0 : ℚ) < floatMax := by decide +kernel
    exact lt_max_of_lt_right (lt_min hmax hq)
  have hnonneg := t.nonneg
  by_cases hlimit : floatLimit ≤ |t.seconds + ttl|
  · have hsign : ¬ t.seconds + ttl < 0 := by linarith
    simp only [Lease.isExpired, Reading.float, PyFloat.add, PyFloat.ofRat, if_pos hlimit, hsign,
      PyFloat.le, PyFloat.lt]
    simp
  · have hgt : ¬ t.seconds + ttl ≤ t.seconds := by linarith
    rw [Bool.eq_false_iff, ne_eq, Reading.float, isExpired_finite (e := t.seconds + ttl)]
    · exact hgt
    · simp only [PyFloat.add, PyFloat.ofRat, if_neg hlimit]

lemma Net.UnitsAgree.of_demand {ns : String} {demand : Set Reservation} {n : Net}
    (h : Net.OpenReachable ns demand n)
    (hunits : ∀ r r', Called demand r → r.fits [] = true → (floatOfInt r.ttlSeconds).isSome →
      Called demand r' → r.kind = r'.kind → r.scope = r'.scope → r.unit = r'.unit) :
    n.UnitsAgree := by
  intro i r' w live expired hclient l hl
  have hok := h.ok
  have hinformed := hok.clients i
  rw [hclient] at hinformed
  obtain ⟨hcalled', -, hgranted⟩ := hinformed
  obtain ⟨r, hcalled, hfits, hkey, token, now, hlease⟩ := hok.history.demanded _ (hgranted l hl)
  obtain ⟨hkind, hscope⟩ := scopeKey_injective hkey
  obtain ⟨ttl, httl, -⟩ := Reservation.lease?_eq_some hlease
  rw [(Reservation.lease?_terms hlease).2.1]
  exact hunits r r' hcalled hfits (by simp [httl]) hcalled' hkind.symm hscope.symm

lemma counted_beside (ns : String) {demand : Set Reservation} (hr : Called demand r)
    (hfits : r.fits [] = true) (httl : (floatOfInt r.ttlSeconds).isSome)
    (hr' : Called demand r') (hkind : r.kind = r'.kind) (hscope : r.scope = r'.scope) :
    ∃ n w l, Net.OpenReachable ns demand n ∧ n.clients 0 = .counted r' w [l] [] ∧
      l.unit = r.unit := by
  let t : Reading := epoch
  obtain ⟨l, hl⟩ : ∃ l, r.lease? "a" t.float = some l := by
    obtain ⟨ttl, httl⟩ := Option.isSome_iff_exists.mp httl
    simp [Reservation.lease?, httl]
  have hfirst : Net.OpenReachable ns demand (Net.solo (Store.first ns t r "a" l) .idle) :=
    .first (fun _ _ _ => trivial) t hr.1 hr.2 hfits hl
  have hraw : ((Store.first ns t r "a" l).scopes (scopeKey ns r'.kind r'.scope)).value =
      [(l.leaseId, .lease l)] := by
    rw [← hkind, ← hscope]
    simp [Store.first, Store.grant, Store.initial, grantScope, Dict.eraseAll, Dict.set, Dict.get?]
  have hpart : partition t.float
      ((Store.first ns t r "a" l).scopes (scopeKey ns r'.kind r'.scope)).value = .ok ([l], []) := by
    simp [hraw, partition, Bind.bind, Except.bind, Reservation.lease?_live hr.2 hl]
  have h1 := hfirst.step (.solo_reserve hr'.1 hr'.2 1) trivial
  have h2 := h1.step (.solo (.watch (.reserve r') 1) (by simp)) trivial
  have h3 := h2.step (.solo (.fetch (.reserve r') _) (by simp)) trivial
  have h4 := h3.step (.solo (.count r' _ _ [l] [] hpart) (by simp)) trivial
  exact ⟨_, _, l, h4, Net.solo_clients .., (Reservation.lease?_terms hl).2.1⟩

/-! ### The condition -/

/-- Whatever is compared with a cap in any interleaving is of the cap's unit exactly when no two
calls ask for budget in one scope for models of different classes, the first of them in terms that
can be granted. -/
theorem units_agree_iff (ns : String) (calls : Set (AdmissionEnv × AdmissionCall)) :
    (∀ n, Net.OpenReachable ns (demandOf calls) n → n.UnitsAgree) ↔
      ∀ call ∈ calls, ∀ call' ∈ calls, ∀ scope c c', call.2.Gets call.1 scope c →
        call'.2.Asks call'.1 scope c' → c = c' := by
  constructor
  · rintro hunits call hcall call' hcall' scope c c' ⟨r, hr, hcheck, hkind, rfl, rfl, hfits, httl⟩
      ⟨r', hr', hcheck', hkind', hscope, rfl⟩
    have hcalled : Called (demandOf calls) r := ⟨⟨call, hcall, hr⟩, hcheck⟩
    have hcalled' : Called (demandOf calls) r' := ⟨⟨call', hcall', hr'⟩, hcheck'⟩
    obtain ⟨n, w, l, hn, hclient, hunit⟩ :=
      counted_beside ns hcalled hfits httl hcalled' (hkind.trans hkind'.symm) hscope.symm
    have hsame := hunits n hn 0 r' w [l] [] hclient l (List.mem_singleton_self l)
    apply budgetUnit_injective
    rcases hr.unit with ⟨hslots, -⟩ | ⟨-, hbudget⟩
    · rw [hkind] at hslots
      cases hslots
    · rcases hr'.unit with ⟨hslots, -⟩ | ⟨-, hbudget'⟩
      · rw [hkind'] at hslots
        cases hslots
      · rw [← hbudget, ← hbudget', ← hunit, hsame]
  · intro hcond n hn
    refine Net.UnitsAgree.of_demand hn ?_
    rintro r r' ⟨⟨call, hcall, hr⟩, hcheck⟩ hfits httl ⟨⟨call', hcall', hr'⟩, hcheck'⟩ hkind hscope
    rcases hr.unit with ⟨hslots, hunit⟩ | ⟨hbudget, hunit⟩
    · rcases hr'.unit with ⟨-, hunit'⟩ | ⟨hbudget', -⟩
      · rw [hunit, hunit']
      · rw [hkind, hbudget'] at hslots
        cases hslots
    · rcases hr'.unit with ⟨hslots', -⟩ | ⟨hbudget', hunit'⟩
      · rw [hkind, hslots'] at hbudget
        cases hbudget
      · have hclass := hcond call hcall call' hcall' r.scope r.providerClass r'.providerClass
          ⟨r, hr, hcheck, hbudget, rfl, rfl, hfits, httl⟩
          ⟨r', hr', hcheck', hbudget', hscope.symm, rfl⟩
        rw [hunit, hunit', hclass]

/-! ### A campaign of two models -/

/-- `quietEnv` with half a dollar set aside for a run that is paid by the token. -/
def campaignEnv : AdmissionEnv :=
  { quietEnv with
    environ := fun name => if name = "FINOPS_RESERVE_USD" then some "0.5" else none
    rt :=
      { quietEnv.rt with
        parseFloat := fun text =>
          if text = "0.5" then some (.finite (1 / 2))
          else if text = "100" then some (.finite 100)
          else none } }

def campaignScope : LeaseScope := ⟨.campaign, "spec", by decide +kernel⟩

def campaignPhase (phaseName token model : String) : AdmissionRequest :=
  phaseRequest campaignScope "spec" phaseName token model "worktree" "results" 3600

def cappedCampaign : Session Registry :=
  { store :=
      { Registry.empty with
        caps := fun key =>
          if key = "finops:lease:cap:budget:campaign:spec" then some "100" else none } }

/-- Two phases of one workflow, in the window of one model and on the bill of the other. -/
def twoPhases : Set (AdmissionEnv × AdmissionCall) :=
  {(campaignEnv, .request (campaignPhase "plan" "0a" "anthropic/claude-opus-5")),
    (campaignEnv, .request (campaignPhase "build" "0b" "deepseek/deepseek-v4-flash"))}

/-- The reservation of a phase, if it can be granted. -/
def grantable (req : AdmissionRequest) : Option Reservation :=
  match price campaignEnv req with
  | .error _ => none
  | .ok p    =>
    match (budgetRequest campaignEnv req p campaignEnv.reserving cappedCampaign).1 with
    | .error _ => none
    | .ok r    =>
      if r.check.isOk && r.fits [] && (floatOfInt r.ttlSeconds).isSome then some r else none

lemma grantable_spec {req : AdmissionRequest} {r : Reservation} (h : grantable req = some r) :
    AdmissionCall.Reserves campaignEnv (.request req) r ∧ r.check = .ok () ∧ r.fits [] = true ∧
      (floatOfInt r.ttlSeconds).isSome := by
  simp only [grantable] at h
  split at h
  · cases h
  · rename_i p hprice
    split at h
    · cases h
    · rename_i r' hrun
      split_ifs at h with hgrant
      cases h
      simp only [Bool.and_eq_true] at hgrant
      obtain ⟨⟨hcheck, hfits⟩, httl⟩ := hgrant
      refine ⟨.budget hprice (Prod.ext hrun rfl), ?_, hfits, httl⟩
      cases hr : r.check with
      | ok _ => rfl
      | error e => simp [hr, Except.isOk, Except.toBool] at hcheck

lemma exists_of_any {α : Type} {x : Option α} {p : α → Prop} [DecidablePred p]
    (h : (x.any fun a => decide (p a)) = true) : ∃ a, x = some a ∧ p a := by
  obtain ⟨a, ha, hp⟩ := (Option.any_eq_true _ _).mp h
  exact ⟨a, ha, of_decide_eq_true hp⟩

/-- Plan-window percent and dollars are added up against one cap. -/
theorem campaign_mixes_units :
    ∃ n, Net.OpenReachable "finops:lease" (demandOf twoPhases) n ∧ ¬ n.UnitsAgree := by
  obtain ⟨r, hr, hunit, hkind, hscope⟩ : ∃ r,
      grantable (campaignPhase "plan" "0a" "anthropic/claude-opus-5") = some r ∧
        r.unit = "window_percent" ∧ r.kind = .budget ∧ r.scope = campaignScope := by
    refine exists_of_any ?_
    decide +kernel
  obtain ⟨r', hr', hunit', hkind', hscope'⟩ : ∃ r',
      grantable (campaignPhase "build" "0b" "deepseek/deepseek-v4-flash") = some r' ∧
        r'.unit = "usd" ∧ r'.kind = .budget ∧ r'.scope = campaignScope := by
    refine exists_of_any ?_
    decide +kernel
  obtain ⟨hreserves, hcheck, hfits, httl⟩ := grantable_spec hr
  obtain ⟨hreserves', hcheck', -, -⟩ := grantable_spec hr'
  have hcalled : Called (demandOf twoPhases) r := ⟨⟨_, .inl rfl, hreserves⟩, hcheck⟩
  have hcalled' : Called (demandOf twoPhases) r' := ⟨⟨_, .inr rfl, hreserves'⟩, hcheck'⟩
  obtain ⟨n, w, l, hn, hclient, hl⟩ :=
    counted_beside "finops:lease" hcalled hfits httl hcalled' (hkind.trans hkind'.symm)
      (hscope.trans hscope'.symm)
  refine ⟨n, hn, fun hunits => ?_⟩
  have hsame := hunits 0 r' w [l] [] hclient l (List.mem_singleton_self l)
  rw [hl, hunit, hunit'] at hsame
  exact absurd hsame (by decide)

end Units

end AgenticDynamics.Control
