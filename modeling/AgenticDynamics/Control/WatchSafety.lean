import AgenticDynamics.Control.LeaseSafety
import AgenticDynamics.Control.LeaseWatch

/-!
# What the watchdog sees

A granted budget lease is stored, in the hands of a pass, reported, or released before it expired,
as long as nobody else takes it out. A pass that starts after the expiry finds a stored lease in the
index, so the lease does not stay stored when the pass is over.
-/

namespace AgenticDynamics.Control.Watchdog

open Python Optimistic Quarantine

/-! ### Quarantines of the watchdog -/

section Marks

variable {f : Formats} {outcome : Outcome} {o : LeaseObservation} {s t : Surfaces}
  {kind : QuarantineKind} {identity : String}

lemma heard_host (m : Marks) (reads writes : Bool) : m.Heard .host true reads writes := by
  rw [Marks.Heard]
  cases hhost : m.ledger .host with
  | some word => exact .inl rfl
  | none =>
    by_cases hhash : m.hash = true
    · exact .inl hhash
    · refine .inr ⟨?_, .inl rfl⟩
      simp [Marks.answer, hhost, hhash]

lemma append_filled {a b : String} (h : strip a ≠ "") : strip (a ++ b) ≠ "" := by
  intro hblank
  have hspace : ∀ c ∈ a.toList, isSpace c = true := by
    intro c hc
    apply isSpace_of_strip hblank
    rw [String.toList_append]
    exact List.mem_append_left _ hc
  apply h
  have hdrop : a.toList.dropWhile isSpace = [] := List.dropWhile_eq_nil_iff.mpr hspace
  rw [strip, hdrop]
  rfl

lemma why_filled : strip (o.why f) ≠ "" := by
  delta LeaseObservation.why
  iterate 10 apply append_filled
  decide +kernel

lemma apply_ok_of_problems {c : Call} {reason : QuarantineReason} {why source runId : String}
    {leaseIds : List String} {costSource : Option String} {metadata : Dict Json}
    (hrequest : c.request = .quarantine reason why source runId leaseIds costSource metadata)
    (hproblems : (c.opened reason why source runId leaseIds costSource metadata).problems = []) :
    ∃ t, s.apply c = .ok t := by
  rw [Surfaces.apply, hrequest]
  simp only [hproblems, ne_eq, not_true_eq_false, if_false]
  split_ifs
  · exact ⟨_, rfl⟩
  · exact ⟨_, rfl⟩
  · exact ⟨_, rfl⟩

lemma quarantineCall_ok (s : Surfaces) (f : Formats) (outcome : Outcome) (o : LeaseObservation)
    (kind : QuarantineKind) (hidentity : strip identity ≠ "") :
    ∃ t, s.apply (quarantineCall f outcome o kind identity) = .ok t := by
  refine apply_ok_of_problems rfl ?_
  have hsource : strip "lease_watchdog" ≠ "" := by decide +kernel
  have hwhy : strip (o.why f) ≠ "" := why_filled
  simp [QuarantineRecord.problems, Call.opened, quarantineCall, hidentity, hsource, hwhy]

lemma markSurface_spec (f : Formats) (outcome : Outcome) (o : LeaseObservation) (hs : HashKeyed s)
    (target : QuarantineKind × String) (hstripped : strip target.2 = target.2) :
    HashKeyed (markSurface f outcome o s target) ∧
      (∀ kind identity, s.isQuarantined .host true kind identity = true →
        (markSurface f outcome o s target).isQuarantined .host true kind identity = true) ∧
      (outcome.raises target.1 target.2 = false → target.2 = "" ∨
        (markSurface f outcome o s target).isQuarantined .host true target.1 target.2 = true) := by
  obtain ⟨kind, identity⟩ := target
  rw [markSurface]
  by_cases hskip : identity = "" ∨ outcome.raises kind identity = true
  · rw [if_pos hskip]
    refine ⟨hs, fun _ _ h => h, fun hraises => .inl ?_⟩
    rcases hskip with hblank | hraised
    · exact hblank
    · cases hraises.symm.trans hraised
  · rw [if_neg hskip]
    rw [not_or] at hskip
    obtain ⟨t, ht⟩ := quarantineCall_ok s f outcome o kind
      (by rw [hstripped]; exact hskip.1)
    rw [ht]
    obtain ⟨hown, hothers, hkeyed⟩ := apply_spec hs ht
    have hown' : t.marks (entryIdFor kind identity) =
        (s.marks (entryIdFor kind identity)).apply .host true outcome.reads outcome.writes := hown
    have hanswer : (t.marks (entryIdFor kind identity)).answer .host true = true := by
      have happly := (Marks.answer_apply (s.marks (entryIdFor kind identity)) .host true
        outcome.reads outcome.writes).mpr (heard_host _ _ _)
      rw [hown']
      exact happly
    refine ⟨hkeyed, fun kind' identity' h => ?_, fun _ => .inr ?_⟩
    · rw [isQuarantined_eq hkeyed]
      by_cases hsame : entryIdFor kind identity = entryIdFor kind' identity'
      · rw [← hsame]
        exact hanswer
      · rw [hothers _ hsame, ← isQuarantined_eq hs]
        exact h
    · rw [isQuarantined_eq hkeyed]
      exact hanswer

lemma quarantineObservation_spec (f : Formats) (outcome : Outcome) (hs : HashKeyed s)
    (hworktree : strip o.worktreeIdentity = o.worktreeIdentity)
    (hnamespace : strip o.resultNamespace = o.resultNamespace) :
    HashKeyed (quarantineObservation f outcome o s) ∧
      (∀ kind identity, s.isQuarantined .host true kind identity = true →
        (quarantineObservation f outcome o s).isQuarantined .host true kind identity = true) ∧
      (outcome.raises .worktree o.worktreeIdentity = false → o.worktreeIdentity = "" ∨
        (quarantineObservation f outcome o s).isQuarantined .host true .worktree
          o.worktreeIdentity = true) ∧
      (outcome.raises .resultNamespace o.resultNamespace = false → o.resultNamespace = "" ∨
        (quarantineObservation f outcome o s).isQuarantined .host true .resultNamespace
          o.resultNamespace = true) := by
  rw [quarantineObservation, List.foldl_cons, List.foldl_cons, List.foldl_nil]
  obtain ⟨hkeyed, hkept, hown⟩ := markSurface_spec f outcome o hs
    (.worktree, o.worktreeIdentity) hworktree
  obtain ⟨hkeyed', hkept', hown'⟩ := markSurface_spec f outcome o hkeyed
    (.resultNamespace, o.resultNamespace) hnamespace
  exact ⟨hkeyed', fun _ _ h => hkept' _ _ (hkept _ _ h),
    fun hraises => (hown hraises).imp_right (hkept' _ _), hown'⟩

end Marks

/-! ### Reports -/

section Reports

variable {f : Formats} {outcome : Outcome} {s t : Watch} {l : Lease} {sweep : ℕ} {start : Reading}

/-- What is reported and what is quarantined stays so. -/
structure Further (s t : Watch) : Prop where
  reports : s.reports ⊆ t.reports
  marks : ∀ kind identity, s.Marked kind identity → t.Marked kind identity

lemma Further.refl (s : Watch) : Further s s := ⟨fun _ h => h, fun _ _ h => h⟩

lemma Further.trans {u : Watch} (h : Further s t) (h' : Further t u) : Further s u :=
  ⟨fun _ hr => h'.reports (h.reports hr), fun _ _ hm => h'.marks _ _ (h.marks _ _ hm)⟩

lemma Further.reported (h : Further s t) (hl : s.Reported f l) : t.Reported f l := by
  obtain ⟨⟨r, hr, hid, hflag⟩, hworktree, hnamespace⟩ := hl
  exact ⟨⟨r, h.reports hr, hid, hflag⟩, h.marks _ _ hworktree, h.marks _ _ hnamespace⟩

lemma exists_buildFlag {o : LeaseObservation} (hnamed : strip o.runId ≠ "") :
    ∃ flag, buildFlag o = some flag := by
  have hfilled : o.runId ≠ "" := by
    rintro hblank
    rw [hblank] at hnamed
    exact hnamed rfl
  have hstatus : ∀ b : Bool, strip (if b then "lease_expired_budget"
      else "lease_expired_concurrency") ≠ "" := by decide +kernel
  have hkind := hstatus (decide (o.kind = .budget))
  simp only [decide_eq_true_eq] at hkind
  simp [buildFlag, hfilled, hnamed, hkind]

lemma not_attributable {o : LeaseObservation} (h : ¬ o.attributable = true) :
    o.worktreeIdentity = "" ∧ o.resultNamespace = "" := by
  simpa [LeaseObservation.attributable] using h

@[simp] lemma observe_worktree (now : PyFloat) :
    (observe f l now).worktreeIdentity = worktreeOf f l := rfl

@[simp] lemma observe_namespace (now : PyFloat) :
    (observe f l now).resultNamespace = namespaceOf f l := rfl

lemma reportLease_spec (f : Formats) (sweep : ℕ) (start : Reading) (outcome : Outcome)
    (hs : HashKeyed s.surfaces) (hnamed : strip l.runId ≠ "") :
    HashKeyed (s.reportLease f sweep start outcome l).surfaces ∧
      Further s (s.reportLease f sweep start outcome l) ∧
      (l.kind = .budget → outcome.persists l.leaseId = true →
        outcome.raises .worktree (worktreeOf f l) = false →
        outcome.raises .resultNamespace (namespaceOf f l) = false →
        (s.reportLease f sweep start outcome l).Reported f l) := by
  have hreport : (s.reportLease f sweep start outcome l).reports = s.reports ++
      [⟨sweep, observe f l start.float, if outcome.persists l.leaseId then
        buildFlag (observe f l start.float) else none⟩] := rfl
  have hreports : s.reports ⊆ (s.reportLease f sweep start outcome l).reports := by
    rw [hreport]
    exact List.subset_append_left _ _
  have hflag (hpersists : outcome.persists l.leaseId = true) :
      ∃ r ∈ (s.reportLease f sweep start outcome l).reports,
        r.observation.leaseId = l.leaseId ∧ r.flag.isSome = true := by
    obtain ⟨flag, hbuilt⟩ := exists_buildFlag (o := observe f l start.float) hnamed
    rw [hreport, if_pos hpersists, hbuilt]
    exact ⟨_, List.mem_append_right _ (List.mem_singleton_self _), rfl, rfl⟩
  by_cases hmarks : l.kind = .budget ∧ (observe f l start.float).attributable = true
  · have hsurfaces : (s.reportLease f sweep start outcome l).surfaces =
        quarantineObservation f outcome (observe f l start.float) s.surfaces := if_pos hmarks
    obtain ⟨hkeyed, hkept, hworktree, hnamespace⟩ := quarantineObservation_spec f
      outcome (o := observe f l start.float) hs (strip_strip _) (strip_strip _)
    rw [← hsurfaces] at hkeyed hkept hworktree hnamespace
    rw [observe_worktree] at hworktree
    rw [observe_namespace] at hnamespace
    exact ⟨hkeyed, ⟨hreports, fun kind identity hmarked => hmarked.imp_right (hkept _ _)⟩,
      fun _ hpersists hraises hraises' =>
        ⟨hflag hpersists, hworktree hraises, hnamespace hraises'⟩⟩
  · have hsurfaces : (s.reportLease f sweep start outcome l).surfaces = s.surfaces := if_neg hmarks
    refine ⟨hsurfaces ▸ hs, ⟨hreports, ?_⟩, ?_⟩
    · intro kind identity hmarked
      rw [Watch.Marked, hsurfaces]
      exact hmarked
    · intro hkind hpersists _ _
      obtain ⟨hworktree, hnamespace⟩ := not_attributable fun h => hmarks ⟨hkind, h⟩
      rw [observe_worktree] at hworktree
      rw [observe_namespace] at hnamespace
      exact ⟨hflag hpersists, .inl hworktree, .inl hnamespace⟩

/-- What a pass leaves when it has reported its leases. -/
structure Passed (f : Formats) (outcome : Outcome) (leases : List Lease) (s t : Watch) : Prop where
  store : t.store = s.store
  sweeps : t.sweeps = s.sweeps
  releases : t.releases = s.releases
  finished : t.finished = s.finished
  ids : t.reports.map (fun r => r.observation.leaseId) =
    s.reports.map (fun r => r.observation.leaseId) ++ leases.map Lease.leaseId
  keyed : HashKeyed t.surfaces
  further : Further s t
  reported : ∀ l ∈ leases, l.kind = .budget → outcome.persists l.leaseId = true →
    outcome.raises .worktree (worktreeOf f l) = false →
    outcome.raises .resultNamespace (namespaceOf f l) = false → t.Reported f l

lemma passed_reports {leases : List Lease} (hs : HashKeyed s.surfaces)
    (hnamed : ∀ l ∈ leases, strip l.runId ≠ "") :
    Passed f outcome leases s (leases.foldl (Watch.reportLease f sweep start outcome) s) := by
  induction leases generalizing s with
  | nil => exact ⟨rfl, rfl, rfl, rfl, by simp, hs, .refl s, by simp⟩
  | cons l leases ih =>
    obtain ⟨hkeyed, hfurther, hreported⟩ := reportLease_spec f sweep start outcome hs
      (hnamed l List.mem_cons_self)
    have hrest := ih hkeyed fun l' hl' => hnamed l' (List.mem_cons_of_mem l hl')
    refine ⟨hrest.store, hrest.sweeps, hrest.releases, hrest.finished, ?_, hrest.keyed,
      hfurther.trans hrest.further, ?_⟩
    · rw [List.foldl_cons, hrest.ids, List.map_cons]
      simp [Watch.reportLease, observe]
    · intro l' hl' hkind hpersists hraises hraises'
      rcases List.mem_cons.mp hl' with rfl | hl'
      · exact hrest.further.reported (hreported hkind hpersists hraises hraises')
      · exact hrest.reported l' hl' hkind hpersists hraises hraises'

end Reports

/-! ### Steps -/

section Steps

variable {ns : String} {f : Formats} {s t : Watch} {e : WatchEvent}

inductive WatchStep (ns : String) (f : Formats) (s : Watch) : WatchEvent → Watch → Prop
  | tick (now : Reading) (hle : s.store.clock.seconds ≤ now.seconds) :
      WatchStep ns f s (.tick now) { s with store := { s.store with clock := now } }
  | evictScope (key : String) :
      WatchStep ns f s (.evictScope key) { s with store := s.store.evictScope key true }
  | evictIndex : WatchStep ns f s .evictIndex { s with store := s.store.evictIndex true }
  | reserve (r : Reservation) (token : String) (readAt now : Reading) (live : List Lease)
      (expired : Dict Lease) (l : Lease) (hcheck : r.check = .ok ()) (hnew : token ∉ s.store.drawn)
      (hpart : partition readAt.float (s.store.scopes (scopeKey ns r.kind r.scope)).value =
        .ok (live, expired)) (hlease : r.lease? token now.float = some l) :
      WatchStep ns f s (.reserve r token readAt now)
        { s with
          store := { s.store.grant (scopeKey ns r.kind r.scope) expired l with
            drawn := token :: s.store.drawn } }
  | release (leaseId key : String) (hget : Dict.get? leaseId s.store.index.value = some key) :
      WatchStep ns f s (.release leaseId)
        { s with
          store := { s.store.delete key [leaseId] with released := leaseId :: s.store.released }
          releases := (leaseId, s.store.clock) :: s.releases }
  | begin (sweep : ℕ) (hnone : s.sweeps sweep = none) :
      WatchStep ns f s (.begin sweep)
        { s with
          sweeps := Function.update s.sweeps sweep
            (some ⟨s.store.clock, sortedSet (s.store.index.value.map Prod.snd), []⟩) }
  | prune (sweep : ℕ) (readAt start : Reading) (key : String) (rest : List String)
      (reclaimed live : List Lease) (expired : Dict Lease)
      (hsweep : s.sweeps sweep = some ⟨start, key :: rest, reclaimed⟩)
      (hread : start.seconds ≤ readAt.seconds)
      (hpart : partition readAt.float (s.store.scopes key).value = .ok (live, expired)) :
      WatchStep ns f s (.prune sweep readAt)
        { s with
          store := s.store.delete key (expired.map Prod.fst)
          sweeps := Function.update s.sweeps sweep
            (some ⟨start, rest, reclaimed ++ expired.map Prod.snd⟩) }
  | fail (sweep : ℕ) (start : Reading) (key : String) (rest : List String) (reclaimed : List Lease)
      (hsweep : s.sweeps sweep = some ⟨start, key :: rest, reclaimed⟩) :
      WatchStep ns f s (.fail sweep)
        { s with
          sweeps := Function.update s.sweeps sweep none
          finished := start :: s.finished }
  | report (sweep : ℕ) (outcome : Outcome) (start : Reading) (reclaimed : List Lease)
      (hsweep : s.sweeps sweep = some ⟨start, [], reclaimed⟩) :
      WatchStep ns f s (.report sweep outcome)
        ((sortedLeases reclaimed).foldl (Watch.reportLease f sweep start outcome)
          { s with
            sweeps := Function.update s.sweeps sweep none
            finished := start :: s.finished })

lemma WatchStep.of_step (ns : String) (f : Formats) (s : Watch) (e : WatchEvent) :
    s.step ns f e = s ∨ WatchStep ns f s e (s.step ns f e) := by
  cases e with
  | tick now =>
    rw [Watch.step]
    split_ifs with hle
    · exact .inr (.tick now hle)
    · exact .inl rfl
  | evictScope key =>
    rw [Watch.step]
    split_ifs
    · exact .inr (.evictScope key)
    · exact .inl rfl
  | evictIndex =>
    rw [Watch.step]
    split_ifs
    · exact .inr .evictIndex
    · exact .inl rfl
  | reserve r token readAt now =>
    rw [Watch.step]
    split_ifs with hdraw
    · rw [Watch.reserve]
      split
      · next live expired l hcheck hpart hlease =>
        split_ifs
        · exact .inr (.reserve r token readAt now live expired l hcheck hdraw.1 hpart hlease)
        · exact .inl rfl
      · exact .inl rfl
    · exact .inl rfl
  | release leaseId =>
    rw [Watch.step]
    split
    · next key hget => exact .inr (.release leaseId key hget)
    · exact .inl rfl
  | begin sweep =>
    rw [Watch.step]
    split
    · exact .inl rfl
    · next hnone => exact .inr (.begin sweep hnone)
  | prune sweep readAt =>
    rw [Watch.step]
    split
    · next start key rest reclaimed hsweep =>
      split_ifs with hread
      · split
        · next live expired hpart =>
          exact .inr (.prune sweep readAt start key rest reclaimed live expired hsweep hread.1
            hpart)
        · exact .inl rfl
      · exact .inl rfl
    · exact .inl rfl
  | fail sweep =>
    rw [Watch.step]
    split
    · next start key rest reclaimed hsweep =>
      exact .inr (.fail sweep start key rest reclaimed hsweep)
    · exact .inl rfl
  | report sweep outcome =>
    rw [Watch.step]
    split
    · next start reclaimed hsweep => exact .inr (.report sweep outcome start reclaimed hsweep)
    · exact .inl rfl

/-! ### The registry -/

/-- What is stored was granted, under an id of its own and for a named run. -/
structure Registered (s : Store) : Prop where
  entries : ∀ key, ∀ entry ∈ (s.scopes key).value, FromGrant s.granted key entry
  once : ∀ key, ((s.scopes key).value.map Prod.fst).Nodup
  listed : ∀ entry ∈ s.index.value, ∃ g ∈ s.granted, g.lease.leaseId = entry.1 ∧ g.key = entry.2
  unique : (s.granted.map fun g => g.lease.leaseId).Nodup
  tokens : ∀ g ∈ s.granted, ∃ kind, ∃ token ∈ s.drawn, g.lease.leaseId = leaseIdOf kind token
  named : ∀ g ∈ s.granted, strip g.lease.runId ≠ ""

namespace Registered

variable {s : Store} {key : String}

lemma initial (start : Reading) : Registered (Store.initial start) := by
  constructor <;> simp [Store.initial]

lemma eq_of_id (h : Registered s) {g g' : Grant} (hg : g ∈ s.granted) (hg' : g' ∈ s.granted)
    (hid : g.lease.leaseId = g'.lease.leaseId) : g = g' :=
  List.inj_on_of_nodup_map h.unique hg hg' hid

lemma of_entry (h : Registered s) {i : String} {l : Lease}
    (hmem : (i, .lease l) ∈ (s.scopes key).value) : ⟨key, l⟩ ∈ s.granted ∧ l.leaseId = i := by
  obtain ⟨⟨k, l'⟩, hg, hkey, hid, hl⟩ := h.entries key _ hmem
  cases hl
  cases hkey
  exact ⟨hg, hid⟩

lemma eq_of_entry (h : Registered s) {g : Grant} (hg : g ∈ s.granted) {l : Lease}
    (hmem : (g.lease.leaseId, .lease l) ∈ (s.scopes key).value) : g = ⟨key, l⟩ := by
  obtain ⟨hg', hid⟩ := h.of_entry hmem
  exact h.eq_of_id hg hg' hid.symm

lemma tick (h : Registered s) (now : Reading) : Registered { s with clock := now } := { h with }

lemma evictScope (h : Registered s) (key : String) : Registered (s.evictScope key true) := by
  refine { h with entries := ?_, once := ?_ }
  · intro k entry hentry
    rw [evictScope_value] at hentry
    split at hentry
    · cases hentry
    · exact h.entries k entry hentry
  · intro k
    rw [evictScope_value]
    split
    · exact List.nodup_nil
    · exact h.once k

lemma evictIndex (h : Registered s) : Registered (s.evictIndex true) := by
  refine { h with listed := ?_ }
  intro entry hentry
  cases hentry

lemma delete (h : Registered s) (key : String) (ids released : List String) :
    Registered { s.delete key ids with released := released } := by
  refine { h with entries := ?_, once := ?_, listed := ?_ }
  · intro k entry hentry
    exact h.entries k entry (mem_delete_scope.mp hentry).1
  · intro k
    show (((s.delete key ids).scopes k).value.map Prod.fst).Nodup
    by_cases hk : k = key
    · subst hk
      simpa [Store.delete, hdel_value] using Dict.nodup_eraseAll (h.once k)
    · simpa [Store.delete, hk] using h.once k
  · intro entry hentry
    exact h.listed entry ((mem_delete_index key).mp hentry).1

lemma fresh (h : Registered s) {r : Reservation} {token : String} {now : PyFloat} {l : Lease}
    (hnew : token ∉ s.drawn) (hlease : r.lease? token now = some l) :
    ∀ g ∈ s.granted, g.lease.leaseId ≠ l.leaseId := by
  intro g hg hid
  obtain ⟨kind, token', htoken, hg'⟩ := h.tokens g hg
  rw [hg', (Reservation.lease?_fields hlease).2.2] at hid
  rw [leaseIdOf_injective hid] at htoken
  exact hnew htoken

lemma new_index (h : Registered s) {l : Lease}
    (hfresh : ∀ g ∈ s.granted, g.lease.leaseId ≠ l.leaseId) :
    ∀ kv ∈ s.index.value, kv.1 ≠ l.leaseId := by
  intro kv hkv
  obtain ⟨g, hg, hid, -⟩ := h.listed kv hkv
  rw [← hid]
  exact hfresh g hg

lemma grant (h : Registered s) {r : Reservation} {token : String} {now : PyFloat} {l : Lease}
    {expired : Dict Lease} (hcheck : r.check = .ok ()) (hnew : token ∉ s.drawn)
    (hlease : r.lease? token now = some l) :
    Registered { s.grant key expired l with drawn := token :: s.drawn } := by
  have hfresh := h.fresh hnew hlease
  constructor
  case entries =>
    intro k entry hentry
    rcases (mem_grant_scope (h.entries key) hfresh).mp hentry with ⟨hold, -⟩ | ⟨rfl, rfl⟩
    · exact (h.entries k entry hold).mono fun _ hg => List.mem_cons_of_mem _ hg
    · exact ⟨⟨k, l⟩, List.mem_cons_self .., rfl, rfl, rfl⟩
  case once =>
    intro k
    show (((s.grant key expired l).scopes k).value.map Prod.fst).Nodup
    by_cases hk : k = key
    · subst hk
      simp only [Store.grant, Function.update_self, Cell.write_value, grantScope]
      exact Dict.nodup_set (Dict.nodup_eraseAll (h.once k))
    · simpa [Store.grant, hk] using h.once k
  case listed =>
    intro entry hentry
    rcases (mem_grantIndex (h.new_index hfresh)).mp hentry with ⟨hold, -⟩ | rfl
    · obtain ⟨g, hg, hrest⟩ := h.listed entry hold
      exact ⟨g, List.mem_cons_of_mem _ hg, hrest⟩
    · exact ⟨⟨key, l⟩, List.mem_cons_self .., rfl, rfl⟩
  case unique =>
    simp only [Store.grant, List.map_cons, List.nodup_cons]
    refine ⟨?_, h.unique⟩
    intro hmem
    obtain ⟨g, hg, hid⟩ := List.mem_map.mp hmem
    exact hfresh g hg hid
  case tokens =>
    intro g hg
    rcases List.mem_cons.mp hg with rfl | hold
    · exact ⟨r.kind, token, List.mem_cons_self .., (Reservation.lease?_fields hlease).2.2⟩
    · obtain ⟨kind, token', htoken, hid⟩ := h.tokens g hold
      exact ⟨kind, token', List.mem_cons_of_mem _ htoken, hid⟩
  case named =>
    intro g hg
    rcases List.mem_cons.mp hg with rfl | hold
    · obtain ⟨ttl, -, rfl⟩ := Reservation.lease?_eq_some hlease
      intro hblank
      rw [Reservation.check, if_pos hblank] at hcheck
      cases hcheck
    · exact h.named g hold

end Registered

lemma reportLeases_frame {leases : List Lease} {sweep : ℕ} {start : Reading} {outcome : Outcome} :
    (leases.foldl (Watch.reportLease f sweep start outcome) s).store = s.store ∧
      (leases.foldl (Watch.reportLease f sweep start outcome) s).sweeps = s.sweeps := by
  induction leases generalizing s with
  | nil => exact ⟨rfl, rfl⟩
  | cons l leases ih => exact ih

lemma Registered.step (h : Registered s.store) (hstep : WatchStep ns f s e t) :
    Registered t.store := by
  cases hstep with
  | tick now hle => exact h.tick now
  | evictScope key => exact h.evictScope key
  | evictIndex => exact h.evictIndex
  | reserve r token readAt now live expired l hcheck hnew hpart hlease =>
    exact h.grant hcheck hnew hlease
  | release leaseId key hget => exact h.delete key [leaseId] _
  | begin sweep hnone => exact h
  | prune sweep readAt start key rest reclaimed live expired hsweep hread hpart =>
    exact h.delete key _ _
  | fail sweep start key rest reclaimed hsweep => exact h
  | report sweep outcome start reclaimed hsweep =>
    rw [reportLeases_frame.1]
    exact h

end Steps

/-! ### Who has a lease -/

section Holders

variable {ns : String} {f : Formats} {s t : Watch} {e : WatchEvent}

/-- The ids that have been reported, or that a pass has reclaimed. -/
def Watch.taken (s : Watch) : Option ℕ → List String
  | none   => s.reports.map fun r => r.observation.leaseId
  | some i => ((s.sweeps i).elim [] Sweep.reclaimed).map Lease.leaseId

/-- Nothing is taken twice, and what is taken is stored no more. -/
structure Held (s : Watch) : Prop where
  leases : ∀ i sweep, s.sweeps i = some sweep → ∀ l ∈ sweep.reclaimed,
    ∃ g ∈ s.store.granted, g.lease = l
  granted : ∀ holder, ∀ i ∈ s.taken holder, ∃ g ∈ s.store.granted, g.lease.leaseId = i
  gone : ∀ holder, ∀ i ∈ s.taken holder, ∀ key, ∀ entry ∈ (s.store.scopes key).value, entry.1 ≠ i
  once : ∀ holder, (s.taken holder).Nodup
  apart : ∀ holder holder', ∀ i ∈ s.taken holder, i ∈ s.taken holder' → holder = holder'

namespace Held

lemma taken_update {sweeps : Option Sweep} {sweep : ℕ} {holder : Option ℕ} {store : Store}
    (finished : List Reading) :
    Watch.taken { s with
      store := store, sweeps := Function.update s.sweeps sweep sweeps, finished := finished }
        holder =
      if holder = some sweep then (sweeps.elim [] Sweep.reclaimed).map Lease.leaseId
      else s.taken holder := by
  cases holder with
  | none => rfl
  | some i =>
    by_cases hi : i = sweep
    · subst hi
      simp [Watch.taken]
    · simp [Watch.taken, hi]

lemma of_store (h : Held s) {store : Store} {releases : List (String × Reading)}
    (hgranted : s.store.granted ⊆ store.granted)
    (hscopes : ∀ key, ∀ entry ∈ (store.scopes key).value, entry ∈ (s.store.scopes key).value ∨
      ∀ g ∈ s.store.granted, g.lease.leaseId ≠ entry.1) :
    Held { s with store := store, releases := releases } := by
  constructor
  case leases =>
    intro i sweep hsweep l hl
    obtain ⟨g, hg, hgl⟩ := h.leases i sweep hsweep l hl
    exact ⟨g, hgranted hg, hgl⟩
  case granted =>
    intro holder i hi
    obtain ⟨g, hg, hid⟩ := h.granted holder i hi
    exact ⟨g, hgranted hg, hid⟩
  case gone =>
    intro holder i hi key entry hentry
    rcases hscopes key entry hentry with hold | hnew
    · exact h.gone holder i hi key entry hold
    · obtain ⟨g, hg, hid⟩ := h.granted holder i hi
      rw [← hid]
      exact (hnew g hg).symm
  case once => exact h.once
  case apart => exact h.apart

lemma of_sublist (h : Held s) (hstore : t.store = s.store)
    (hsub : ∀ holder, (t.taken holder).Sublist (s.taken holder))
    (hleases : ∀ i sweep, t.sweeps i = some sweep → ∀ l ∈ sweep.reclaimed,
      ∃ old, s.sweeps i = some old ∧ l ∈ old.reclaimed) : Held t := by
  constructor
  case leases =>
    intro i sweep hsweep l hl
    obtain ⟨old, hold, hl⟩ := hleases i sweep hsweep l hl
    rw [hstore]
    exact h.leases i old hold l hl
  case granted =>
    intro holder i hi
    rw [hstore]
    exact h.granted holder i ((hsub holder).subset hi)
  case gone =>
    intro holder i hi
    rw [hstore]
    exact h.gone holder i ((hsub holder).subset hi)
  case once => exact fun holder => (h.once holder).sublist (hsub holder)
  case apart =>
    intro holder holder' i hi hi'
    exact h.apart holder holder' i ((hsub holder).subset hi) ((hsub holder').subset hi')

lemma old_sweep {sweeps : Option Sweep} {sweep i : ℕ} {other : Sweep}
    (hother : Function.update s.sweeps sweep sweeps i = some other) :
    i = sweep ∧ sweeps = some other ∨ i ≠ sweep ∧ s.sweeps i = some other := by
  by_cases hi : i = sweep
  · subst hi
    rw [Function.update_self] at hother
    exact .inl ⟨rfl, hother⟩
  · rw [Function.update_of_ne hi] at hother
    exact .inr ⟨hi, hother⟩

end Held

lemma mem_expired_ids {now : PyFloat} {raw : Dict Stored} {live : List Lease}
    {expired : Dict Lease} (h : partition now raw = .ok (live, expired)) {i : String} :
    i ∈ expired.map Prod.fst ↔ ∃ l : Lease, (i, .lease l) ∈ raw ∧ l.isExpired now = true := by
  simp only [List.mem_map, Prod.exists, (mem_partition h).2]
  constructor
  · rintro ⟨i, l, hl, rfl⟩
    exact ⟨l, hl⟩
  · rintro ⟨l, hl⟩
    exact ⟨i, l, hl, rfl⟩

lemma expired_sublist {now : PyFloat} {raw : Dict Stored} {live : List Lease}
    {expired : Dict Lease} (h : partition now raw = .ok (live, expired)) :
    (expired.map Prod.fst).Sublist (raw.map Prod.fst) := by
  induction raw generalizing live expired with
  | nil =>
    cases h
    exact List.Sublist.slnil
  | cons entry raw ih =>
    obtain ⟨i, stored⟩ := entry
    cases stored with
    | malformed detail => cases h
    | unparseable detail => cases h
    | lease l =>
      simp only [partition] at h
      cases hrest : partition now raw with
      | error error =>
        rw [hrest] at h
        cases h
      | ok rest =>
        obtain ⟨live', expired'⟩ := rest
        rw [hrest] at h
        simp only [bind, Except.bind] at h
        split at h
        · cases h
          exact (ih hrest).cons_cons i
        · cases h
          exact (ih hrest).cons i

lemma expired_ids {key : String} {now : PyFloat} {live : List Lease} {expired : Dict Lease}
    (h : Registered s.store)
    (hpart : partition now (s.store.scopes key).value = .ok (live, expired)) :
    (expired.map Prod.snd).map Lease.leaseId = expired.map Prod.fst := by
  rw [List.map_map]
  refine List.map_congr_left fun kv hkv => ?_
  exact (h.of_entry (((mem_partition hpart).2 kv.1 kv.2).mp hkv).1).2

lemma Held.prune (h : Held s) (hreg : Registered s.store) {sweep : ℕ} {start readAt : Reading}
    {key : String} {todo rest : List String} {reclaimed live : List Lease} {expired : Dict Lease}
    (hsweep : s.sweeps sweep = some ⟨start, todo, reclaimed⟩)
    (hpart : partition readAt.float (s.store.scopes key).value = .ok (live, expired)) :
    Held { s with
      store := s.store.delete key (expired.map Prod.fst)
      sweeps := Function.update s.sweeps sweep
        (some ⟨start, rest, reclaimed ++ expired.map Prod.snd⟩) } := by
  have hold : s.taken (some sweep) = reclaimed.map Lease.leaseId := by simp [Watch.taken, hsweep]
  have htaken (holder : Option ℕ) : Watch.taken { s with
      store := s.store.delete key (expired.map Prod.fst)
      sweeps := Function.update s.sweeps sweep
        (some ⟨start, rest, reclaimed ++ expired.map Prod.snd⟩) } holder =
      if holder = some sweep then s.taken (some sweep) ++ expired.map Prod.fst
      else s.taken holder := by
    rw [Held.taken_update s.finished, hold, ← expired_ids hreg hpart,
      ← List.map_append]
    rfl
  have hnew : ∀ holder, ∀ i ∈ s.taken holder, i ∉ expired.map Prod.fst := by
    intro holder i hi hin
    obtain ⟨l, hl, -⟩ := (mem_expired_ids hpart).mp hin
    exact h.gone holder i hi key _ hl rfl
  constructor
  case leases =>
    intro i other hother l hl
    rcases Held.old_sweep hother with ⟨-, hsame⟩ | ⟨-, hother⟩
    · cases hsame
      rcases List.mem_append.mp hl with hl | hl
      · exact h.leases sweep _ hsweep l hl
      · obtain ⟨⟨i, l⟩, hil, rfl⟩ := List.mem_map.mp hl
        exact ⟨_, (hreg.of_entry (((mem_partition hpart).2 i l).mp hil).1).1, rfl⟩
    · exact h.leases i other hother l hl
  case granted =>
    intro holder i hi
    rw [htaken] at hi
    split_ifs at hi
    · rcases List.mem_append.mp hi with hi | hi
      · exact h.granted _ i hi
      · obtain ⟨l, hl, -⟩ := (mem_expired_ids hpart).mp hi
        obtain ⟨hg, hid⟩ := hreg.of_entry hl
        exact ⟨_, hg, hid⟩
    · exact h.granted holder i hi
  case gone =>
    intro holder i hi k entry hentry
    obtain ⟨hentry, hkept⟩ := mem_delete_scope.mp hentry
    have hgone : i ∈ expired.map Prod.fst → entry.1 ≠ i := by
      rintro hin rfl
      obtain ⟨l, hl, -⟩ := (mem_expired_ids hpart).mp hin
      obtain ⟨hg, hid⟩ := hreg.of_entry hl
      obtain ⟨g', hg', hkey, hid', -⟩ := hreg.entries k entry hentry
      have hsame := hreg.eq_of_id hg hg' (hid.trans hid'.symm)
      rw [← hsame] at hkey
      exact hkept hkey.symm hin
    rw [htaken] at hi
    split_ifs at hi
    · rcases List.mem_append.mp hi with hi | hi
      · exact h.gone _ i hi k entry hentry
      · exact hgone hi
    · exact h.gone holder i hi k entry hentry
  case once =>
    intro holder
    rw [htaken]
    split_ifs
    · refine List.Nodup.append (h.once _) ((hreg.once key).sublist (expired_sublist hpart)) ?_
      exact hnew _
    · exact h.once holder
  case apart =>
    intro holder holder' i hi hi'
    rw [htaken] at hi hi'
    split_ifs at hi hi' with hholder hholder' hholder'
    · rw [hholder, hholder']
    · rcases List.mem_append.mp hi with hi | hi
      · rw [hholder]
        exact h.apart _ _ i hi hi'
      · exact absurd hi (hnew _ i hi')
    · rcases List.mem_append.mp hi' with hi' | hi'
      · rw [hholder']
        exact h.apart _ _ i hi hi'
      · exact absurd hi' (hnew _ i hi)
    · exact h.apart _ _ i hi hi'

lemma Held.passed (f : Formats) (outcome : Outcome) (h : Held s) (hreg : Registered s.store)
    (hkeyed : HashKeyed s.surfaces) {sweep : ℕ} {start : Reading} {todo : List String}
    {reclaimed : List Lease}
    (hsweep : s.sweeps sweep = some ⟨start, todo, reclaimed⟩) :
    Passed f outcome (sortedLeases reclaimed)
      { s with
        sweeps := Function.update s.sweeps sweep none
        finished := start :: s.finished }
      ((sortedLeases reclaimed).foldl (Watch.reportLease f sweep start outcome)
        { s with
          sweeps := Function.update s.sweeps sweep none
          finished := start :: s.finished }) := by
  refine passed_reports hkeyed fun l hl => ?_
  rw [sortedLeases, List.mem_mergeSort] at hl
  obtain ⟨g, hg, rfl⟩ := h.leases sweep _ hsweep l hl
  exact hreg.named g hg

lemma Held.report (h : Held s) {t : Watch} {sweep : ℕ} {start : Reading} {todo : List String}
    {reclaimed : List Lease} {outcome : Outcome}
    (hsweep : s.sweeps sweep = some ⟨start, todo, reclaimed⟩)
    (hpassed : Passed f outcome (sortedLeases reclaimed)
      { s with
        sweeps := Function.update s.sweeps sweep none
        finished := start :: s.finished } t) : Held t := by
  have hold : s.taken (some sweep) = reclaimed.map Lease.leaseId := by simp [Watch.taken, hsweep]
  have hperm : (sortedLeases reclaimed).Perm reclaimed := List.mergeSort_perm _ _
  have hids : ((sortedLeases reclaimed).map Lease.leaseId).Perm (s.taken (some sweep)) := by
    rw [hold]
    exact hperm.map _
  have htaken (holder : Option ℕ) : t.taken holder =
      if holder = none then s.taken none ++ (sortedLeases reclaimed).map Lease.leaseId
      else if holder = some sweep then [] else s.taken holder := by
    cases holder with
    | none => exact hpassed.ids
    | some i =>
      by_cases hi : i = sweep
      · subst hi
        simp [Watch.taken, hpassed.sweeps]
      · simp [Watch.taken, hpassed.sweeps, hi]
  have hsome : ∀ holder, ∀ i ∈ t.taken holder, ∃ holder', i ∈ s.taken holder' ∧
      (holder' ≠ holder → holder = none ∧ holder' = some sweep) := by
    intro holder i hi
    rw [htaken] at hi
    split_ifs at hi with hnone
    · rcases List.mem_append.mp hi with hi | hi
      · exact ⟨none, hi, fun hne => absurd hnone.symm hne⟩
      · exact ⟨some sweep, hids.mem_iff.mp hi, fun _ => ⟨hnone, rfl⟩⟩
    · cases hi
    · exact ⟨holder, hi, fun hne => absurd rfl hne⟩
  constructor
  case leases =>
    intro i other hother l hl
    rw [hpassed.sweeps] at hother
    rw [hpassed.store]
    rcases Held.old_sweep hother with ⟨-, hnew⟩ | ⟨-, hother⟩
    · cases hnew
    · exact h.leases i other hother l hl
  case granted =>
    intro holder i hi
    obtain ⟨holder', hi, -⟩ := hsome holder i hi
    rw [hpassed.store]
    exact h.granted holder' i hi
  case gone =>
    intro holder i hi
    obtain ⟨holder', hi, -⟩ := hsome holder i hi
    rw [hpassed.store]
    exact h.gone holder' i hi
  case once =>
    intro holder
    rw [htaken]
    split_ifs
    · refine List.Nodup.append (h.once _) (hids.nodup_iff.mpr (h.once _)) ?_
      intro i hi hi'
      cases h.apart none (some sweep) i hi (hids.mem_iff.mp hi')
    · exact List.nodup_nil
    · exact h.once holder
  case apart =>
    intro holder holder' i hi hi'
    -- the pass itself has nothing left, so its leases are found in the reports only
    have hempty : ∀ i, i ∉ t.taken (some sweep) := by
      intro i hi
      rw [htaken, if_neg (Option.some_ne_none sweep), if_pos rfl] at hi
      cases hi
    obtain ⟨old, hold, hmoved⟩ := hsome holder i hi
    obtain ⟨old', hold', hmoved'⟩ := hsome holder' i hi'
    have hsame := h.apart old old' i hold hold'
    by_cases hown : old = holder
    · by_cases hown' : old' = holder'
      · rw [← hown, ← hown', hsame]
      · obtain ⟨-, hsweep'⟩ := hmoved' hown'
        rw [← hown, hsame, hsweep'] at hi
        exact absurd hi (hempty i)
    · obtain ⟨hnone, hsweep'⟩ := hmoved hown
      by_cases hown' : old' = holder'
      · rw [← hown', ← hsame, hsweep'] at hi'
        exact absurd hi' (hempty i)
      · rw [hnone, (hmoved' hown').1]

lemma Held.step (h : Held s) (hreg : Registered s.store) (hkeyed : HashKeyed s.surfaces)
    (hstep : WatchStep ns f s e t) : Held t := by
  cases hstep with
  | tick now hle => exact h.of_store (fun _ hg => hg) fun _ _ hentry => .inl hentry
  | evictScope key =>
    refine h.of_store (fun _ hg => hg) fun k entry hentry => .inl ?_
    rw [evictScope_value] at hentry
    split at hentry
    · cases hentry
    · exact hentry
  | evictIndex => exact h.of_store (fun _ hg => hg) fun _ _ hentry => .inl hentry
  | reserve r token readAt now live expired l hcheck hnew hpart hlease =>
    have hfresh := hreg.fresh hnew hlease
    refine h.of_store (fun _ hg => List.mem_cons_of_mem _ hg) fun k entry hentry => ?_
    rcases (mem_grant_scope (hreg.entries _) hfresh).mp hentry with ⟨hold, -⟩ | ⟨-, rfl⟩
    · exact .inl hold
    · exact .inr hfresh
  | release leaseId key hget =>
    refine h.of_store (fun _ hg => hg) fun k entry hentry => .inl ?_
    exact (mem_delete_scope.mp hentry).1
  | begin sweep hnone =>
    refine h.of_sublist rfl (fun holder => ?_) fun i other hother l hl => ?_
    · rw [Held.taken_update s.finished]
      split_ifs
      · exact List.nil_sublist _
      · exact List.Sublist.refl _
    · rcases Held.old_sweep hother with ⟨-, hnew⟩ | ⟨-, hold⟩
      · cases hnew
        cases hl
      · exact ⟨other, hold, hl⟩
  | prune sweep readAt start key rest reclaimed live expired hsweep hread hpart =>
    exact h.prune hreg hsweep hpart
  | fail sweep start key rest reclaimed hsweep =>
    refine h.of_sublist rfl (fun holder => ?_) fun i other hother l hl => ?_
    · rw [Held.taken_update]
      split_ifs
      · exact List.nil_sublist _
      · exact List.Sublist.refl _
    · rcases Held.old_sweep hother with ⟨-, hnew⟩ | ⟨-, hold⟩
      · cases hnew
      · exact ⟨other, hold, hl⟩
  | report sweep outcome start reclaimed hsweep =>
    exact h.report hsweep (h.passed f outcome hreg hkeyed hsweep)

end Holders

/-! ### Where a budget lease is -/

section Places

variable {ns : String} {f : Formats} {s t : Watch} {e : WatchEvent} {g : Grant}

structure Timed (s : Watch) : Prop where
  running : ∀ i sweep, s.sweeps i = some sweep → sweep.start.seconds ≤ s.store.clock.seconds
  ended : ∀ start ∈ s.finished, start.seconds ≤ s.store.clock.seconds

/-- The lease is where every pass that started after its expiry is still going to look. -/
structure Watch.Stored (s : Watch) (g : Grant) : Prop where
  scope : (g.lease.leaseId, .lease g.lease) ∈ (s.store.scopes g.key).value
  index : (g.lease.leaseId, g.key) ∈ s.store.index.value
  todo : ∀ i sweep, s.sweeps i = some sweep → g.lease.isExpired sweep.start.float = true →
    g.key ∈ sweep.todo

/-- A pass has reclaimed the lease and is going to report it. -/
def Watch.InHand (s : Watch) (l : Lease) : Prop :=
  ∃ i sweep, s.sweeps i = some sweep ∧ l ∈ sweep.reclaimed

/-- No pass is over that started after the expiry. -/
def Watch.Unswept (s : Watch) (l : Lease) : Prop :=
  ∀ start ∈ s.finished, l.isExpired start.float = false

/-- The lease waits for a pass, is reported, or was released in time. -/
def Watch.Placed (f : Formats) (s : Watch) (g : Grant) : Prop :=
  s.Unswept g.lease ∧ (s.Stored g ∨ s.InHand g.lease) ∨ s.Reported f g.lease ∨ ¬ s.Overrun g.lease

structure Tracked (f : Formats) (s : Watch) : Prop where
  registered : Registered s.store
  held : Held s
  keyed : HashKeyed s.surfaces
  timed : Timed s
  placed : ∀ g ∈ s.store.granted, g.lease.kind = .budget → s.Placed f g

lemma Held.initial (start : Reading) : Held { store := Store.initial start } := by
  have htaken : ∀ holder, Watch.taken { store := Store.initial start } holder = [] := by
    intro holder
    cases holder <;> rfl
  constructor
  case leases =>
    intro i sweep hsweep
    cases hsweep
  case once =>
    intro holder
    rw [htaken]
    exact List.nodup_nil
  case apart =>
    intro holder holder' i hi
    rw [htaken] at hi
    cases hi
  all_goals
    intro holder i hi
    rw [htaken] at hi
    cases hi

lemma hashKeyed_initial : HashKeyed {} := by
  refine ⟨⟨?_, List.nodup_nil⟩, ?_⟩
  · intro kv hkv
    cases hkv
  · intro kv hkv
    cases hkv

lemma Tracked.initial (start : Reading) : Tracked f { store := Store.initial start } := by
  refine ⟨.initial start, .initial start, hashKeyed_initial, ⟨?_, ?_⟩, ?_⟩
  · intro i sweep hsweep
    cases hsweep
  · intro start' hstart'
    cases hstart'
  · intro g hg
    cases hg

lemma Tracked.seen (h : Tracked f s) : s.Seen f := by
  refine ⟨h.held.once none, ?_⟩
  intro g hg hkind hoverrun start hstart hexpired
  rcases h.placed g hg hkind with ⟨hunswept, -⟩ | hreported | hreleased
  · rw [hunswept start hstart] at hexpired
    cases hexpired
  · exact hreported
  · exact absurd hoverrun hreleased

lemma Tracked.timed_step (hs : Tracked f s) (hstep : WatchStep ns f s e t) : Timed t := by
  have h := hs.timed
  have hfinished : ∀ {start : Reading} {sweep todo reclaimed},
      s.sweeps sweep = some ⟨start, todo, reclaimed⟩ →
      ∀ start' ∈ start :: s.finished, start'.seconds ≤ s.store.clock.seconds := by
    intro start sweep todo reclaimed hsweep start' hstart'
    rcases List.mem_cons.mp hstart' with rfl | hover
    · exact h.running sweep _ hsweep
    · exact h.ended start' hover
  have hrunning : ∀ {sweep : ℕ} i other, Function.update s.sweeps sweep none i = some other →
      other.start.seconds ≤ s.store.clock.seconds := by
    intro sweep i other hother
    rcases Held.old_sweep hother with ⟨-, hnew⟩ | ⟨-, hold⟩
    · cases hnew
    · exact h.running i other hold
  cases hstep with
  | tick now hle =>
    exact ⟨fun i sweep hsweep => (h.running i sweep hsweep).trans hle,
      fun start hstart => (h.ended start hstart).trans hle⟩
  | begin sweep hnone =>
    refine ⟨?_, h.ended⟩
    intro i other hother
    rcases Held.old_sweep hother with ⟨-, hnew⟩ | ⟨-, hold⟩
    · cases hnew
      exact le_rfl
    · exact h.running i other hold
  | prune sweep readAt start key rest reclaimed live expired hsweep hread hpart =>
    refine ⟨?_, h.ended⟩
    intro i other hother
    rcases Held.old_sweep hother with ⟨-, hnew⟩ | ⟨-, hold⟩
    · cases hnew
      exact h.running sweep ⟨start, key :: rest, reclaimed⟩ hsweep
    · exact h.running i other hold
  | fail sweep start key rest reclaimed hsweep => exact ⟨hrunning, hfinished hsweep⟩
  | report sweep outcome start reclaimed hsweep =>
    have hpassed := hs.held.passed f outcome hs.registered hs.keyed hsweep
    constructor
    · rw [hpassed.sweeps, hpassed.store]
      exact hrunning
    · rw [hpassed.finished, hpassed.store]
      exact hfinished hsweep
  | _ => exact ⟨h.running, h.ended⟩

lemma Further.placed_reported (h : Further s t) (hreported : s.Reported f g.lease) :
    t.Placed f g := .inr (.inl (h.reported hreported))

lemma not_expired_before {l : Lease} {start now : Reading} (hle : start.seconds ≤ now.seconds)
    (h : l.isExpired now.float = false) : l.isExpired start.float = false :=
  not_expired_of_le hle h

lemma Tracked.placed_new (h : Tracked f s) {key : String} {expired : Dict Lease} {l : Lease}
    {drawn : List String} (hfresh : ∀ g ∈ s.store.granted, g.lease.leaseId ≠ l.leaseId)
    (hlive : l.isExpired s.store.clock.float = false) :
    Watch.Placed f { s with store := { s.store.grant key expired l with drawn := drawn } }
      ⟨key, l⟩ := by
  refine .inl ⟨fun start hstart => not_expired_before (h.timed.ended start hstart) hlive, .inl ?_⟩
  constructor
  case scope => exact (mem_grant_scope (h.registered.entries key) hfresh).mpr (.inr ⟨rfl, rfl⟩)
  case index => exact (mem_grantIndex (h.registered.new_index hfresh)).mpr (.inr rfl)
  case todo =>
    intro i sweep hsweep hexpired
    rw [not_expired_before (h.timed.running i sweep hsweep) hlive] at hexpired
    cases hexpired

lemma Tracked.placed_stored (h : Tracked f s) (hg : g ∈ s.store.granted)
    (hkind : g.lease.kind = .budget) (hstep : WatchStep ns f s e t) (hsight : InSight ns f s e)
    (hunswept : s.Unswept g.lease) (hstored : s.Stored g) : t.Placed f g := by
  cases hstep with
  | tick now hle => exact .inl ⟨hunswept, .inl ⟨hstored.scope, hstored.index, hstored.todo⟩⟩
  | evictScope key =>
    refine .inl ⟨hunswept, .inl ⟨?_, hstored.index, hstored.todo⟩⟩
    have hkey : g.key ≠ key := by
      rintro rfl
      exact hsight _ hstored.scope _ rfl hkind
    show _ ∈ ((s.store.evictScope key true).scopes g.key).value
    rw [evictScope_value, if_neg hkey]
    exact hstored.scope
  | evictIndex => exact absurd hkind (hsight _ _ hstored.scope _ rfl)
  | reserve r token readAt now live expired l hcheck hnew hpart hlease =>
    have hfresh := h.registered.fresh hnew hlease
    have hkept : g.lease.leaseId ∉ expired.map Prod.fst := by
      intro hin
      obtain ⟨l', hraw, hexp⟩ := (mem_expired_ids hpart).mp hin
      cases h.registered.eq_of_entry hg hraw
      rw [hsight.1 _ hraw _ rfl hkind] at hexp
      cases hexp
    refine .inl ⟨hunswept, .inl ⟨?_, ?_, hstored.todo⟩⟩
    · exact (mem_grant_scope (h.registered.entries _) hfresh).mpr
        (.inl ⟨hstored.scope, fun _ => hkept⟩)
    · exact (mem_grantIndex (h.registered.new_index hfresh)).mpr (.inl ⟨hstored.index, hkept⟩)
  | release leaseId key hget =>
    by_cases hid : g.lease.leaseId = leaseId
    · refine .inr (.inr fun hoverrun => ?_)
      have hexp := hoverrun _ List.mem_cons_self hid.symm
      rw [hsight _ _ hstored.scope hid _ rfl hkind] at hexp
      cases hexp
    · have hnot : g.lease.leaseId ∉ [leaseId] := List.mem_singleton.not.mpr hid
      refine .inl ⟨hunswept, .inl ⟨?_, ?_, hstored.todo⟩⟩
      · exact mem_delete_scope.mpr ⟨hstored.scope, fun _ => hnot⟩
      · exact (mem_delete_index key).mpr ⟨hstored.index, hnot⟩
  | begin sweep hnone =>
    refine .inl ⟨hunswept, .inl ⟨hstored.scope, hstored.index, ?_⟩⟩
    intro i other hother hexpired
    rcases Held.old_sweep hother with ⟨-, hnew⟩ | ⟨-, hold⟩
    · cases hnew
      rw [sortedSet, List.mem_mergeSort, List.mem_dedup]
      exact List.mem_map_of_mem hstored.index
    · exact hstored.todo i other hold hexpired
  | prune sweep readAt start key rest reclaimed live expired hsweep hread hpart =>
    by_cases hin : g.lease.leaseId ∈ expired.map Prod.fst
    · obtain ⟨l, hraw, hexp⟩ := (mem_expired_ids hpart).mp hin
      cases h.registered.eq_of_entry hg hraw
      refine .inl ⟨hunswept, .inr ⟨sweep, _, Function.update_self .., ?_⟩⟩
      exact List.mem_append_right _
        (List.mem_map_of_mem (((mem_partition hpart).2 _ l).mpr ⟨hraw, hexp⟩))
    · refine .inl ⟨hunswept, .inl ⟨?_, ?_, ?_⟩⟩
      · exact mem_delete_scope.mpr ⟨hstored.scope, fun _ => hin⟩
      · exact (mem_delete_index key).mpr ⟨hstored.index, hin⟩
      · intro i other hother hexpired
        rcases Held.old_sweep hother with ⟨-, hnew⟩ | ⟨-, hold⟩
        · cases hnew
          have htodo := hstored.todo sweep ⟨start, key :: rest, reclaimed⟩ hsweep hexpired
          rcases List.mem_cons.mp htodo with hkey | hrest
          · -- the scope has just been swept, and the lease had expired by then
            have hscope := hstored.scope
            rw [hkey] at hscope
            exact absurd ((mem_expired_ids hpart).mpr
              ⟨_, hscope, Lease.expired_mono hread hexpired⟩) hin
          · exact hrest
        · exact hstored.todo i other hold hexpired
  | fail sweep start key rest reclaimed hsweep =>
    obtain ⟨-, -, hlive⟩ := hsight start _ _ hsweep
    refine .inl ⟨?_, .inl ⟨hstored.scope, hstored.index, ?_⟩⟩
    · exact List.forall_mem_cons.mpr ⟨hlive _ _ hstored.scope _ rfl hkind, hunswept⟩
    · intro i other hother hexpired
      rcases Held.old_sweep hother with ⟨-, hnew⟩ | ⟨-, hold⟩
      · cases hnew
      · exact hstored.todo i other hold hexpired
  | report sweep outcome start reclaimed hsweep =>
    have hpassed := h.held.passed f outcome h.registered h.keyed hsweep
    have hlive : g.lease.isExpired start.float = false := by
      rw [Bool.eq_false_iff]
      intro hexpired
      cases hstored.todo sweep ⟨start, [], reclaimed⟩ hsweep hexpired
    refine .inl ⟨?_, .inl ⟨?_, ?_, ?_⟩⟩
    · rw [Watch.Unswept, hpassed.finished]
      exact List.forall_mem_cons.mpr ⟨hlive, hunswept⟩
    · rw [hpassed.store]
      exact hstored.scope
    · rw [hpassed.store]
      exact hstored.index
    · intro i other hother hexpired
      rw [hpassed.sweeps] at hother
      rcases Held.old_sweep hother with ⟨-, hnew⟩ | ⟨-, hold⟩
      · cases hnew
      · exact hstored.todo i other hold hexpired

lemma Tracked.placed_inHand (h : Tracked f s) (hkind : g.lease.kind = .budget)
    (hstep : WatchStep ns f s e t) (hsight : InSight ns f s e) (hunswept : s.Unswept g.lease)
    (hhand : s.InHand g.lease) : t.Placed f g := by
  obtain ⟨i, other, hother, hl⟩ := hhand
  have hothers {sweep : ℕ} {sweeps : Option Sweep} (hi : i ≠ sweep) :
      Function.update s.sweeps sweep sweeps i = some other :=
    (Function.update_of_ne hi _ _).trans hother
  cases hstep with
  | begin sweep hnone =>
    have hi : i ≠ sweep := by
      rintro rfl
      rw [hnone] at hother
      cases hother
    exact .inl ⟨hunswept, .inr ⟨i, other, hothers hi, hl⟩⟩
  | prune sweep readAt start key rest reclaimed live expired hsweep hread hpart =>
    by_cases hi : i = sweep
    · subst hi
      rw [hsweep] at hother
      cases hother
      exact .inl ⟨hunswept, .inr ⟨i, _, Function.update_self .., List.mem_append_left _ hl⟩⟩
    · exact .inl ⟨hunswept, .inr ⟨i, other, hothers hi, hl⟩⟩
  | fail sweep start key rest reclaimed hsweep =>
    obtain ⟨halone, hnone, -⟩ := hsight start _ _ hsweep
    have hi : i ≠ sweep := by
      rintro rfl
      rw [hsweep] at hother
      cases hother
      exact hnone _ hl hkind
    refine .inl ⟨?_, .inr ⟨i, other, hothers hi, hl⟩⟩
    exact List.forall_mem_cons.mpr ⟨halone i other hi hother _ hl hkind, hunswept⟩
  | report sweep outcome start reclaimed hsweep =>
    obtain ⟨halone, hpersists⟩ := hsight start _ _ hsweep
    have hpassed := h.held.passed f outcome h.registered h.keyed hsweep
    by_cases hi : i = sweep
    · subst hi
      rw [hsweep] at hother
      cases hother
      obtain ⟨hflag, hworktree, hnamespace⟩ := hpersists _ hl hkind
      have hmem : g.lease ∈ sortedLeases reclaimed := by
        rw [sortedLeases, List.mem_mergeSort]
        exact hl
      exact .inr (.inl (hpassed.reported _ hmem hkind hflag hworktree hnamespace))
    · refine .inl ⟨?_, .inr ⟨i, other, ?_, hl⟩⟩
      · rw [Watch.Unswept, hpassed.finished]
        exact List.forall_mem_cons.mpr ⟨halone i other hi hother _ hl hkind, hunswept⟩
      · rw [hpassed.sweeps]
        exact hothers hi
  | _ => exact .inl ⟨hunswept, .inr ⟨i, other, hother, hl⟩⟩

lemma Tracked.further (h : Tracked f s) (hstep : WatchStep ns f s e t) :
    Further s t ∧ s.releases ⊆ t.releases ∧ HashKeyed t.surfaces := by
  cases hstep with
  | release leaseId key hget =>
    exact ⟨⟨fun _ hr => hr, fun _ _ hm => hm⟩, List.subset_cons_self .., h.keyed⟩
  | report sweep outcome start reclaimed hsweep =>
    have hpassed := h.held.passed f outcome h.registered h.keyed hsweep
    refine ⟨⟨hpassed.further.reports, hpassed.further.marks⟩, ?_, hpassed.keyed⟩
    rw [hpassed.releases]
    exact List.Subset.refl _
  | _ => exact ⟨⟨fun _ hr => hr, fun _ _ hm => hm⟩, List.Subset.refl _, h.keyed⟩

lemma Tracked.placed_step (h : Tracked f s) (hstep : WatchStep ns f s e t)
    (hsight : InSight ns f s e) (hg : g ∈ s.store.granted) (hkind : g.lease.kind = .budget) :
    t.Placed f g := by
  obtain ⟨hfurther, hreleases, -⟩ := h.further hstep
  rcases h.placed g hg hkind with ⟨hunswept, hstored | hhand⟩ | hreported | hreleased
  · exact h.placed_stored hg hkind hstep hsight hunswept hstored
  · exact h.placed_inHand hkind hstep hsight hunswept hhand
  · exact hfurther.placed_reported hreported
  · exact .inr (.inr fun hoverrun => hreleased fun kv hkv => hoverrun kv (hreleases hkv))

lemma Tracked.step (h : Tracked f s) (hsight : InSight ns f s e) : Tracked f (s.step ns f e) := by
  rcases WatchStep.of_step ns f s e with hsame | hstep
  · rw [hsame]
    exact h
  · revert hstep
    generalize s.step ns f e = t
    intro hstep
    refine ⟨h.registered.step hstep, h.held.step h.registered h.keyed hstep,
      (h.further hstep).2.2, h.timed_step hstep, ?_⟩
    intro g hg hkind
    have hold := fun hg => h.placed_step hstep hsight hg hkind
    cases hstep with
    | reserve r token readAt now live expired l hcheck hnew hpart hlease =>
      rcases List.mem_cons.mp hg with rfl | hg
      · have hbudget : r.kind = .budget := (Reservation.lease?_fields hlease).1.symm.trans hkind
        exact h.placed_new (h.registered.fresh hnew hlease) (hsight.2 hbudget l hlease)
      · exact hold hg
    | report sweep outcome start reclaimed hsweep =>
      rw [reportLeases_frame.1] at hg
      exact hold hg
    | _ => exact hold hg

/-- As long as no step takes an expired budget lease out of sight, every budget lease that expires
unreleased is reported with a flag and its surfaces are quarantined when the first pass is over
that started after the expiry, and no lease is reported twice. -/
theorem expired_leases_seen (ns : String) (f : Formats) (start : Reading) (es : List WatchEvent)
    (hsight : Runs.Along (Watch.step ns f) (InSight ns f) { store := Store.initial start } es) :
    Runs.Throughout (Watch.step ns f) (Watch.Seen f) { store := Store.initial start } es := by
  intro before hbefore
  have htracked := (hsight.of_prefix hbefore).preserves (P := Tracked f)
    (fun s e hs he => hs.step he) (Tracked.initial start)
  exact htracked.seen

end Places

/-! ### A lease that is seen, and one that is not -/

section Examples

variable {ns : String} {f : Formats} {s t : Watch} {e : WatchEvent} {i : ℕ}

lemma idle_step (hidle : s.sweeps i = none) (hother : ∀ sweep, e = .begin sweep → i ≠ sweep) :
    (s.step ns f e).sweeps i = none := by
  have hupdate : ∀ (sweep : ℕ) (sweeps : Option Sweep), s.sweeps sweep ≠ none →
      Function.update s.sweeps sweep sweeps i = none := by
    intro sweep sweeps hsome
    rw [Function.update_of_ne, hidle]
    rintro rfl
    exact hsome hidle
  rcases WatchStep.of_step ns f s e with hsame | hstep
  · rw [hsame]
    exact hidle
  · revert hstep
    generalize s.step ns f e = t
    intro hstep
    cases hstep with
    | begin sweep hnone => exact (Function.update_of_ne (hother sweep rfl) _ _).trans hidle
    | prune sweep readAt start key rest reclaimed live expired hsweep hread hpart =>
      exact hupdate sweep _ (by rw [hsweep]; exact Option.some_ne_none _)
    | fail sweep start key rest reclaimed hsweep =>
      exact hupdate sweep _ (by rw [hsweep]; exact Option.some_ne_none _)
    | report sweep outcome start reclaimed hsweep =>
      rw [reportLeases_frame.2]
      exact hupdate sweep _ (by rw [hsweep]; exact Option.some_ne_none _)
    | _ => exact hidle

/-- A dollar of a run for a minute, with the worktree it writes to. -/
def minuteLease : Reservation where
  kind := .budget
  scope := ⟨.run, "run", by decide +kernel⟩
  providerClass := .perToken
  amount := .one
  unit := "usd"
  hardCap := .one
  runId := "run"
  costSource := some .estimated
  ttlSeconds := 60
  metadata := [("worktree_identity", .str "tree")]

def plainFormats : Formats where
  host :=
    { loads _ := .error ("JSONDecodeError", "")
      repr _ := ""
      upper text := text
      lower text := text }
  whole _ := "40"
  iso _ := "1970-01-01T00:01:00Z"

def midnight : Reading := epoch

def later : Reading := ⟨100, by norm_num, by decide +kernel⟩

def watchedRun : List WatchEvent :=
  [.reserve minuteLease "a" midnight midnight, .tick later, .begin 0, .prune 0 later, .report 0 {}]

/-- The next lease on the scope takes it out before. -/
def prunedRun : List WatchEvent :=
  [.reserve minuteLease "a" midnight midnight, .tick later, .reserve minuteLease "b" later later,
    .begin 0, .prune 0 later, .report 0 {}]

lemma runs_computed :
    ((minuteLease.lease? "a" midnight.float).all fun l => !l.isExpired midnight.float) = true ∧
      ((watchedRun.foldl (Watch.step "finops:lease" plainFormats)
        { store := Store.initial midnight }).reports.map fun r => r.observation.leaseId) =
          ["bud_a"] ∧
      let s := prunedRun.foldl (Watch.step "finops:lease" plainFormats)
        { store := Store.initial midnight }
      s.reports.length = 0 ∧ s.releases.length = 0 ∧
        (s.finished.any fun start => start.seconds = 100) = true ∧
        (s.store.granted.any fun g => g.lease.kind = .budget ∧
          g.lease.isExpired (.finite 100) = true) = true := by
  decide +kernel

theorem expired_leases_seen_watched :
    ((watchedRun.foldl (Watch.step "finops:lease" plainFormats)
        { store := Store.initial midnight }).reports.map fun r => r.observation.leaseId) =
          ["bud_a"] ∧
      Runs.Throughout (Watch.step "finops:lease" plainFormats) (Watch.Seen plainFormats)
        { store := Store.initial midnight } watchedRun := by
  refine ⟨runs_computed.2.1, ?_⟩
  refine expired_leases_seen _ _ _ _ ⟨⟨?_, ?_⟩, trivial, trivial, trivial, ?_, trivial⟩
  · intro kv hkv
    cases hkv
  · intro _ l hl
    have hlive := runs_computed.1
    rw [hl] at hlive
    have hfalse : l.isExpired midnight.float = false := by simpa using hlive
    exact hfalse
  · intro start todo reclaimed hsweep
    refine ⟨?_, fun l _ _ => ⟨rfl, rfl, rfl⟩⟩
    intro i other hi hother
    have hidle : ∀ {s : Watch} {e : WatchEvent}, s.sweeps i = none →
        (∀ sweep, e = .begin sweep → sweep = 0) →
        (s.step "finops:lease" plainFormats e).sweeps i = none :=
      fun hidle hbegin => idle_step hidle fun sweep he => (hbegin sweep he).symm ▸ hi
    have hnone := hidle (e := .prune 0 later) (hidle (e := .begin 0) (hidle (e := .tick later)
      (hidle (e := .reserve minuteLease "a" midnight midnight)
        (s := { store := Store.initial midnight }) rfl (by simp)) (by simp)) (by simp)) (by simp)
    rw [hnone] at hother
    cases hother

theorem pruned_lease_unseen :
    ¬ Runs.Throughout (Watch.step "finops:lease" plainFormats) (Watch.Seen plainFormats)
      { store := Store.initial midnight } prunedRun := by
  intro h
  obtain ⟨-, hseen⟩ := h prunedRun (List.prefix_refl _)
  obtain ⟨-, -, hreports, hreleases, hfinished, hgranted⟩ := runs_computed
  obtain ⟨g, hg, hbudget⟩ := List.any_eq_true.mp hgranted
  obtain ⟨start, hstart, hseconds⟩ := List.any_eq_true.mp hfinished
  obtain ⟨hkind, hexpired⟩ := of_decide_eq_true hbudget
  have hoverrun : (prunedRun.foldl (Watch.step "finops:lease" plainFormats)
      { store := Store.initial midnight }).Overrun g.lease := by
    intro kv hkv
    rw [List.length_eq_zero_iff.mp hreleases] at hkv
    cases hkv
  have hexpired' : g.lease.isExpired start.float = true := by
    rw [Reading.float, of_decide_eq_true hseconds]
    exact hexpired
  obtain ⟨⟨r, hr, -⟩, -⟩ := hseen g hg hkind hoverrun start hstart hexpired'
  rw [List.length_eq_zero_iff.mp hreports] at hr
  cases hr

end Examples

end AgenticDynamics.Control.Watchdog
