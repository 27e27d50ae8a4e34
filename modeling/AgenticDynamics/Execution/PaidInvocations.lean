import AgenticDynamics.Execution.LedgerAccounts

/-!
# What a run has paid for

Every turn keeps the books of the phases, whatever the agents, the escalations and the corrections
do, as long as each phase binds its own rows before it raises. The records of a result then settle
every call, each of them once.
-/

namespace AgenticDynamics.Execution

open Python

variable {w : Settings} {scene : Scene} {s t : LoopState} {d : PhaseDef} {pr : PhaseResult}

namespace LoopState

/-! ### One turn -/

lemma raises_plain {e : Executed} {raised : Raised} (hunmarked : s.Unmarked w scene)
    (hexecutes : s.Executes d)
    (he : executePhase w d (s.priorInvocations d.name) (s.executionCount d.name) scene s.locals =
      some e) (hraises : s.raises w d scene = some raised) :
    e.record.FailedWith Plain := by
  obtain ⟨hexception, hnote⟩ := hunmarked d hexecutes
  refine executePhase_failedWith hraises ?_ (Gates.keeps_plain hnote) he
  cases raised with
  | admissionRefused message => exact plain_denied message
  | exception repr           => exact Or.inr (hexception repr hraises)

lemma Bookkeeping.executed (horder : s.Ordered) (h : s.Bookkeeping w (some d.name))
    (hexecutes : s.Executes d) (horthodox : s.Orthodox scene) (hunmarked : s.Unmarked w scene)
    {e : Executed}
    (he : executePhase w d (s.priorInvocations d.name) (s.executionCount d.name) scene s.locals =
      some e) :
    Bookkeeping w
      ({ s with
        index := s.index + 1
        locals := e.locals
        events := s.events ++ e.calls.map Event.invoked : LoopState }.conclude w s.index d e.record)
      ({ s with
        index := s.index + 1
        locals := e.locals
        events := s.events ++ e.calls.map Event.invoked : LoopState }.conclude w s.index d
          e.record).nextName := by
  obtain ⟨hrunning, hphase, hexpands, hskip⟩ := hexecutes
  have hd := List.mem_of_getElem? hphase
  have hid := executePhase_identity he
  obtain ⟨hbound, hprocessed⟩ := horthodox d ⟨hrunning, hphase, hexpands, hskip⟩
  have hfailed {raised : Raised} (hraises : s.raises w d scene = some raised) :
      e.record.FailedWith Plain :=
    raises_plain hunmarked ⟨hrunning, hphase, hexpands, hskip⟩ he hraises
  -- What a test phase raises is of no concern to the books.
  generalize hraised : (if d.kind = "test" then none else s.raises w d scene) = raised
  have hbooks : d.kind ≠ "test" → ∃ new, e.record.Books w d (s.priorInvocations d.name)
      (s.executionCount d.name) e.calls raised new := by
    intro hkind
    rw [← hraised, if_neg hkind]
    exact executePhase_books hkind hbound (hprocessed hkind) he
  have hcalls : d.kind = "test" → e.calls = [] := fun hkind =>
    (executePhase_test hkind hbound he).1
  have htest : d.kind = "test" → e.record.costUsd = 0 ∧ e.record.tokens = 0 := fun hkind =>
    ⟨(executePhase_test hkind hbound he).2.1, (executePhase_test hkind hbound he).2.2.1⟩
  have hname : ∀ call ∈ e.calls, call.phase = d.name := by
    by_cases hkind : d.kind = "test"
    · rw [hcalls hkind]
      exact fun call hcall => nomatch hcall
    · obtain ⟨new, hnew⟩ := hbooks hkind
      exact hnew.phase
  have hnone : (e.record.status = .failed → verificationFailure e.record d.kind = true) →
      raised = none := by
    intro hverification
    by_cases hkind : d.kind = "test"
    · rw [← hraised, if_pos hkind]
    · rw [← hraised, if_neg hkind]
      by_contra hsome
      obtain ⟨raised', hraises⟩ := Option.ne_none_iff_exists'.mp hsome
      have hplain := hfailed hraises
      have hfalse := verificationFailure_eq_false hkind hplain.2
      rw [hverification hplain.1] at hfalse
      cases hfalse
  have hevents (status : PhaseStatus) :
      (s.events ++ e.calls.map Event.invoked ++ [Event.executed d.name status]).filterMap
          Event.call? =
        s.events.filterMap Event.call? ++ e.calls := by
    rw [List.filterMap_append, List.filterMap_append, List.filterMap_map]
    have hself : e.calls.filterMap (Event.call? ∘ Event.invoked) = e.calls :=
      List.filterMap_some
    rw [hself]
    exact List.append_nil _
  have hrecord (t : LoopState) (pr : PhaseResult) (hbooked : pr.booked = e.record.booked)
      (hphases : t.phases = s.phases) (hrecords : t.records = s.records ++ [pr])
      (hprior : t.priorInvocations = s.priorInvocations)
      (hcount : t.executionCount = s.executionCount) (hresume : t.resume = s.resume)
      (hcompleted : t.completed = s.completed) (status : PhaseStatus)
      (hmore : t.events = s.events ++ e.calls.map Event.invoked ++ [.executed d.name status])
      (hcomplete : w.stopOnError = false ∨ t.stopped = true ∨ raised = none ∧ ¬ d.Expands) :
      t.Bookkeeping w none := by
    have hsame := hbooked
    simp only [PhaseResult.booked, Prod.mk.injEq] at hsame
    obtain ⟨hidentity, hcost, htokens, -⟩ := hsame
    refine h.record horder.names hd (horder.next_notMem hphase) hrunning t pr e.calls raised hphases
      hrecords (hidentity.trans hid) hprior hcount hresume hcompleted (hmore ▸ hevents status) hname
      (fun hne => ⟨hexpands, fun hkind => hne (hcalls hkind), hskip⟩)
      (fun hkind => ⟨hcost.trans (htest hkind).1, htokens.trans (htest hkind).2⟩)
      (fun hkind => ?_) hcomplete
    obtain ⟨new, hnew⟩ := hbooks hkind
    exact ⟨new, hnew.of_booked hbooked⟩
  generalize hc : LoopState.conclude w _ s.index d e.record = c
  have hconcluded : Concluded w _ s.index d e.record c := hc ▸ concluded _ s.index d e.record
  clear hc
  cases hconcluded with
  | checkpoint =>
    refine Bookkeeping.of_none ?_
    exact hrecord _ { e.record with status := .awaiting } rfl rfl rfl rfl rfl rfl rfl .awaiting rfl
      (Or.inr (Or.inl rfl))
  | next hnext =>
    refine Bookkeeping.of_none ?_
    refine hrecord _ e.record rfl rfl rfl rfl rfl rfl rfl e.record.status rfl ?_
    by_cases hstop : w.stopOnError = false
    · exact Or.inl hstop
    · exact Or.inr (Or.inr ⟨hnone fun hfailed => absurd (hnext hfailed) hstop, hexpands⟩)
  | stopped hstatus budget =>
    refine Bookkeeping.of_none ?_
    exact hrecord _ e.record rfl rfl rfl rfl rfl rfl rfl e.record.status rfl (Or.inr (Or.inl rfl))
  | rewound target producer hstatus hstop hverification hagent hbudget htarget hproducer =>
    have hsame : d.kind ≠ "test" → producer = d := by
      intro hkind
      rw [if_neg hkind] at htarget
      rw [htarget] at hproducer
      exact Option.some.inj (hproducer.symm.trans hphase)
    generalize hu : ({ s with
      index := s.index + 1
      locals := e.locals
      records := s.records ++ [e.record]
      correctionBudget :=
        Function.update s.correctionBudget d.name (s.correctionBudget d.name + 1)
      events := s.events ++ e.calls.map Event.invoked ++ [.executed d.name e.record.status] } :
        LoopState) = u
    have hbooks' : u.Bookkeeping w none := by
      rw [← hu]
      exact hrecord _ e.record rfl rfl rfl rfl rfl rfl rfl e.record.status rfl
        (Or.inr (Or.inr ⟨hnone fun _ => hverification, hexpands⟩))
    have hordered : u.Ordered := by
      rw [← hu]
      exact horder.recorded _ e.record hphase (congrArg Prod.fst hid) rfl rfl rfl
    have huphases : u.phases = s.phases := by rw [← hu]
    have hustopped : u.stopped = false := by rw [← hu]; exact hrunning
    have hrewound := hbooks'.rewind hordered.names hordered.nodup_records (huphases ▸ hd)
      (huphases ▸ List.mem_of_getElem? hproducer) hsame hagent hstop hustopped e.record target
    obtain ⟨records, prior, count, hrewind, -⟩ :=
      rewind_eq hordered.nodup_records d e.record target producer
    have hnext : (u.rewind d e.record target producer).nextName = some producer.name := by
      rw [hrewind]
      refine nextName_eq hustopped ?_
      exact huphases ▸ hproducer
    subst hu
    rw [hnext]
    exact hrewound

lemma Bookkeeping.turned (horder : s.Ordered) (h : s.Bookkeeping w s.nextName)
    (horthodox : s.Orthodox scene) (hunmarked : s.Unmarked w scene)
    (hturned : Turned w scene s t) : t.Bookkeeping w t.nextName := by
  cases hturned with
  | ended => exact h
  | refused d message hrunning hphase hexpands =>
    rw [nextName_eq hrunning hphase] at h
    exact h.refused horder hrunning hphase hexpands message
  | expanded d phases hrunning hphase hexpands hplan =>
    rw [nextName_eq hrunning hphase] at h
    exact h.expanded horder hphase hexpands hplan
  | skipped d hrunning hphase _ hresume hcompleted =>
    rw [nextName_eq hrunning hphase] at h
    have hcalls : s.calls d.name = [] := by
      by_contra hne
      exact (h.called d.name hne).2 ⟨hresume, hcompleted⟩
    refine (h.settle (by simpa using hcalls)).congr rfl rfl rfl rfl rfl (List.Subset.refl _) id ?_
    simp [Event.call?]
  | executed d e hexecutes he =>
    rw [nextName_eq hexecutes.1 hexecutes.2.1] at h
    exact h.executed horder hexecutes horthodox hunmarked he

/-! ### Runs -/

lemma Bookkeeping.after {scenes : ℕ → Scene} (horder : s.Ordered) (h : s.Bookkeeping w s.nextName)
    (horthodox : ∀ n u, after w s scenes n = some u → u.Orthodox (scenes n))
    (hunmarked : ∀ n u, after w s scenes n = some u → u.Unmarked w (scenes n)) {n : ℕ}
    (ht : after w s scenes n = some t) : t.Ordered ∧ t.Bookkeeping w t.nextName := by
  induction n generalizing t with
  | zero      =>
    cases ht
    exact ⟨horder, h⟩
  | succ n ih =>
    obtain ⟨u, hu, hturn⟩ := Option.bind_eq_some_iff.mp ht
    obtain ⟨horder', hbooks⟩ := ih hu
    have hturned := Turned.of_turn hturn
    exact ⟨horder'.turned hturned,
      hbooks.turned horder' (horthodox n u hu) (hunmarked n u hu) hturned⟩

lemma nextName_of_ended (h : s.Ended) : s.nextName = none := by
  rw [nextName]
  rcases h with hstopped | hend
  · exact if_pos hstopped
  · rw [List.getElem?_eq_none_iff.mpr hend]
    exact ite_self _

lemma mapIdx_attemptId (jobId name : String) {rows : List AttemptRow}
    (h : rows.map AttemptRow.attemptNumber = List.range' 1 rows.length) :
    (rows.mapIdx fun i row => attemptId jobId name
      (if row.attemptNumber = 0 then i + 1 else row.attemptNumber)) =
      (List.range' 1 rows.length).map (attemptId jobId name) := by
  refine List.ext_getElem (by simp) fun i hi _ => ?_
  have hi' : i < rows.length := by simpa using hi
  have hnumber : rows[i].attemptNumber = 1 + i := by
    have := List.getElem_of_eq h (i := i) (by simpa using hi')
    simpa using this
  rw [List.getElem_mapIdx, List.getElem_map, List.getElem_range', hnumber, if_neg (by omega)]
  simp

lemma Bookkeeping.accounted (horder : s.Ordered) (h : s.Bookkeeping w s.nextName)
    (hended : s.Ended) (jobId : String) : s.Accounted jobId := by
  rw [nextName_of_ended hended] at h
  have hrecord : ∀ pr ∈ s.records, pr.kind ≠ "test" → ∃ rows : List AttemptRow,
      rows.map AttemptRow.paid = s.paid pr.phase ∧
        rows.map AttemptRow.attemptNumber = List.range' 1 rows.length ∧
        pr.Settles (rows.map AttemptRow.paid) ∧
        pr.attempts = if 1 < rows.length then rows else [] := by
    intro pr hpr hkind
    obtain ⟨d, hd, hid, -⟩ := h.kinds pr hpr
    obtain ⟨hname, hsame⟩ := Prod.mk.inj hid
    obtain ⟨rows, hpaid, hnumbers, -, hcase⟩ := h.booked d hd (hsame ▸ hkind)
    rw [← hname] at hpaid hcase
    rcases hcase with ⟨hnotin, -⟩ | ⟨pr', hpr', hname', hsettles, hattempts, -⟩
    · exact absurd (List.mem_map_of_mem hpr) hnotin
    · have heq : pr' = pr := List.inj_on_of_nodup_map horder.nodup_records hpr' hpr hname'
      subst heq
      exact ⟨rows, hpaid, hnumbers, hsettles, hattempts⟩
  refine ⟨fun call hcall => ?_, fun pr hpr hkind => ?_, h.tests, fun name => ?_, ?_⟩
  · have hne : s.calls call.phase ≠ [] :=
      List.ne_nil_of_mem (List.mem_filter.mpr ⟨hcall, by simp⟩)
    obtain ⟨⟨d, hd, -, hkind, hname⟩, -⟩ := h.called _ hne
    obtain ⟨rows, -, -, -, hcase⟩ := h.booked d hd hkind
    refine ⟨d, hd, hkind, hname, ?_⟩
    rcases hcase with ⟨-, -, -, -, hnil | hnext⟩ | ⟨pr, hpr, hphase, -⟩
    · exact absurd (hname ▸ hnil) hne
    · cases hnext
    · exact ⟨pr, filter_phase_eq_singleton horder.nodup_records hpr hphase⟩
  · obtain ⟨rows, hpaid, -, hsettles, -⟩ := hrecord pr hpr hkind
    exact hpaid ▸ hsettles
  · by_cases hnil : s.calls name = []
    · rw [hnil]
      exact List.nodup_nil
    · obtain ⟨⟨d, hd, -, hkind, rfl⟩, -⟩ := h.called name hnil
      obtain ⟨rows, -, -, hordinals, -⟩ := h.booked d hd hkind
      rw [hordinals]
      exact List.nodup_range'
  · rw [attemptIds, List.nodup_flatMap]
    constructor
    · intro pr hpr
      obtain ⟨hpr, hkind⟩ := List.mem_filter.mp hpr
      obtain ⟨rows, -, hnumbers, -, hattempts⟩ := hrecord pr hpr (by simpa using hkind)
      by_cases hmany : 1 < rows.length
      · rw [if_pos hmany] at hattempts
        rw [hattempts, if_pos hmany, mapIdx_attemptId jobId pr.phase hnumbers]
        exact List.Nodup.map (fun n m heq => (attemptId_inj heq).2) List.nodup_range'
      · rw [if_neg hmany] at hattempts
        rw [hattempts, if_neg (by simp)]
        exact List.nodup_singleton _
    · have hphases : ((s.records.filter fun pr => pr.kind ≠ "test").map PhaseResult.phase).Nodup :=
        (List.filter_sublist.map _).nodup horder.nodup_records
      refine (List.pairwise_map.mp hphases).imp fun {pr pr'} hne => ?_
      have hid {pr : PhaseResult} {id : String} (hmem : id ∈ if 1 < pr.attempts.length then
          pr.attempts.mapIdx fun i row => attemptId jobId pr.phase
            (if row.attemptNumber = 0 then i + 1 else row.attemptNumber)
          else [attemptId jobId pr.phase 1]) : ∃ n, id = attemptId jobId pr.phase n := by
        split_ifs at hmem
        · obtain ⟨i, hi, rfl⟩ := List.mem_mapIdx.mp hmem
          exact ⟨_, rfl⟩
        · exact ⟨1, List.mem_singleton.mp hmem⟩
      intro id hmem hmem'
      obtain ⟨n, hn⟩ := hid hmem
      obtain ⟨m, hm⟩ := hid hmem'
      exact hne (attemptId_inj (hn.symm.trans hm)).1

end LoopState

variable {phases : List PhaseDef} {opening : Opening}

lemma start_unpaid (w : Settings) (phases : List PhaseDef) (opening : Opening) :
    (start w phases opening).events = [] ∧
      (start w phases opening).priorInvocations = (fun _ => []) ∧
      (start w phases opening).executionCount = (fun _ => 0) ∧
      ((start w phases opening).resume = false → (start w phases opening).completed = []) := by
  rw [start]
  cases opening.resume with
  | none   => exact ⟨rfl, rfl, rfl, fun _ => rfl⟩
  | some r =>
    dsimp only
    split <;> refine ⟨rfl, rfl, rfl, fun h => ?_⟩ <;> cases h

lemma start_bookkeeping (w : Settings) (phases : List PhaseDef) (opening : Opening)
    {next : Option String} : (start w phases opening).Bookkeeping w next := by
  obtain ⟨hevents, hprior, hcount, hresume⟩ := start_unpaid w phases opening
  have hrecords := (start_fresh w phases opening).2.1
  have hcalls (name : String) : (start w phases opening).calls name = [] := by
    rw [LoopState.calls, hevents]
    rfl
  refine {
    booked := fun d _ _ => ⟨[], ?_, rfl, by rw [hcalls]; rfl, Or.inl ⟨?_, ?_, ?_, ?_, Or.inl (hcalls _)⟩⟩
    called := fun name hname => absurd (hcalls name) hname
    touched := fun name hname => ?_
    kinds := fun pr hpr => ?_
    tests := fun pr hpr => ?_
    resumes := hresume }
  · rw [LoopState.paid, hcalls]
    rfl
  · rw [hrecords]
    exact List.not_mem_nil
  · rw [hprior]
  · rw [hcount]
    rfl
  · rw [hcalls]
    rfl
  · rw [hprior, hcount] at hname
    simp at hname
  · rw [hrecords] at hpr
    cases hpr
  · rw [hrecords] at hpr
    cases hpr

/-- What an agent answers for one dollar and one token. -/
def paidAnswer : Answer := .answered ⟨true, "", 1, ⟨1, 0, 0, 0, 0, 1⟩⟩

end AgenticDynamics.Execution
