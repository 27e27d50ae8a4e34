import AgenticDynamics.Execution.WorkflowLoop

/-!
# The turns of the loop

What a turn of the phase loop can be, said once: the loop refuses or makes an expansion, skips a
phase, or executes one and goes on, stops, or rewinds. Each turn brings the loop nearer to its end,
so a run in which no exception leaves the runner returns.
-/

namespace AgenticDynamics.Execution

open Python

variable {w : Settings} {scene : Scene} {s t : LoopState} {d : PhaseDef} {pr : PhaseResult}

namespace LoopState

/-! ### Inversion -/

inductive Concluded (w : Settings) (s : LoopState) (index : ℕ) (d : PhaseDef) (pr : PhaseResult) :
    LoopState → Prop
  | checkpoint (hkind : d.kind ≠ "test") (hcheckpoint : d.checkpoint) (hok : pr.status = .ok) :
      Concluded w s index d pr { s with
        records := s.records ++ [{ pr with status := .awaiting }]
        awaiting := some d.name
        events := s.events ++ [.executed d.name .awaiting]
        stopped := true }
  | next (hnext : pr.status = .failed → w.stopOnError = false) :
      Concluded w s index d pr { s with
        records := s.records ++ [pr]
        events := s.events ++ [.executed d.name pr.status] }
  | stopped (hfailed : pr.status = .failed) (budget : String → ℕ) :
      Concluded w s index d pr { s with
        records := s.records ++ [pr]
        events := s.events ++ [.executed d.name pr.status]
        correctionBudget := budget
        stopped := true }
  | rewound (target : ℕ) (producer : PhaseDef) (hfailed : pr.status = .failed)
      (hstop : w.stopOnError) (hverification : verificationFailure pr d.kind)
      (hagent : producer.kind ≠ "test")
      (hbudget : s.correctionBudget d.name < declaredGateRetry d)
      (htarget : if d.kind = "test" then target + 1 = index else target = index)
      (hproducer : s.phases[target]? = some producer) :
      Concluded w s index d pr ({ s with
        records := s.records ++ [pr]
        events := s.events ++ [.executed d.name pr.status]
        correctionBudget :=
          Function.update s.correctionBudget d.name (s.correctionBudget d.name + 1) :
            LoopState }.rewind d pr target producer)

lemma concluded (s : LoopState) (index : ℕ) (d : PhaseDef) (pr : PhaseResult) :
    Concluded w s index d pr (s.conclude w index d pr) := by
  rw [conclude]
  by_cases hcheckpoint : d.kind ≠ "test" ∧ d.checkpoint ∧ pr.status = .ok
  · rw [if_pos hcheckpoint]
    exact .checkpoint hcheckpoint.1 hcheckpoint.2.1 hcheckpoint.2.2
  rw [if_neg hcheckpoint]
  by_cases hfailed : pr.status = .failed ∧ w.stopOnError
  · simp only [if_pos hfailed, correct]
    by_cases hretry : declaredGateRetry d ≠ 0 ∧ verificationFailure pr d.kind
    · rw [if_pos hretry]
      by_cases hused : declaredGateRetry d ≤ s.correctionBudget d.name
      · rw [if_pos hused]
        exact .stopped hfailed.1 _
      rw [if_neg hused]
      by_cases hfirst : d.kind = "test" ∧ index = 0
      · rw [if_pos hfirst]
        exact .stopped hfailed.1 _
      rw [if_neg hfirst]
      split
      · exact .stopped hfailed.1 _
      · rename_i producer hproducer
        by_cases hkind : producer.kind = "test"
        · rw [if_pos hkind]
          exact .stopped hfailed.1 _
        · rw [if_neg hkind]
          refine .rewound _ producer hfailed.1 hfailed.2 hretry.2 hkind (not_le.mp hused) ?_ hproducer
          by_cases htest : d.kind = "test"
          · rw [if_pos htest, if_pos htest]
            exact Nat.sub_add_cancel (Nat.pos_of_ne_zero fun hindex => hfirst ⟨htest, hindex⟩)
          · rw [if_neg htest, if_neg htest]
    · rw [if_neg hretry]
      exact .stopped hfailed.1 _
  · rw [if_neg hfailed]
    refine .next fun hstatus => ?_
    rw [not_and] at hfailed
    simpa using hfailed hstatus

inductive Turned (w : Settings) (scene : Scene) (s : LoopState) : LoopState → Prop
  | ended (hended : s.Ended) : Turned w scene s s
  | refused (d : PhaseDef) (message : String) (hrunning : s.stopped = false)
      (hphase : s.phases[s.index]? = some d) (hexpands : d.Expands)
      (hplan : expandPlanPhases w s.phases scene.plan = .error message) :
      Turned w scene s (s.refuseExpansion w d message)
  | expanded (d : PhaseDef) (phases : List PhaseDef) (hrunning : s.stopped = false)
      (hphase : s.phases[s.index]? = some d) (hexpands : d.Expands)
      (hplan : expandPlanPhases w s.phases scene.plan = .ok (some phases)) :
      Turned w scene s { s with phases }
  | skipped (d : PhaseDef) (hrunning : s.stopped = false) (hphase : s.phases[s.index]? = some d)
      (hexpands : ¬ d.Expands) (hresume : s.resume) (hcompleted : d.name ∈ s.completed) :
      Turned w scene s { s with
        index := s.index + 1
        inheritedPhases := s.inheritedPhases ++ (if s.inherits then [d.name] else [])
        events := s.events ++ [.skipped d.name] }
  | executed (d : PhaseDef) (e : Executed) (hexecutes : s.Executes d)
      (he : executePhase w d (s.priorInvocations d.name) (s.executionCount d.name) scene s.locals
        = some e) :
      Turned w scene s ({ s with
        index := s.index + 1
        locals := e.locals
        events := s.events ++ e.calls.map Event.invoked : LoopState }.conclude w s.index d e.record)

lemma expandPlanPhases_ne_none {phases : List PhaseDef} {plan : Except String (List PlanUnit)}
    (hd : d ∈ phases) (hexpands : d.Expands) : expandPlanPhases w phases plan ≠ .ok none := by
  intro h
  rw [expandPlanPhases] at h
  have hmem : d ∈ phases.filter fun d => d.Expands := List.mem_filter.mpr ⟨hd, by simpa⟩
  split at h
  · rename_i hnil
    rw [hnil] at hmem
    exact List.not_mem_nil hmem
  · split_ifs at h
    cases plan with
    | error e => cases h
    | ok units =>
      simp only [Except.bind] at h
      split at h <;> cases h
  · cases h

lemma Turned.of_turn (h : s.turn w scene = some t) : Turned w scene s t := by
  rw [turn] at h
  by_cases hstopped : s.stopped = true
  · rw [if_pos hstopped] at h
    cases h
    exact .ended (Or.inl hstopped)
  rw [if_neg hstopped] at h
  rw [Bool.not_eq_true] at hstopped
  cases hphase : s.phases[s.index]? with
  | none =>
    rw [hphase] at h
    cases h
    exact .ended (Or.inr (List.getElem?_eq_none_iff.mp hphase))
  | some d =>
    simp only [hphase] at h
    by_cases hexpands : d.Expands
    · rw [if_pos hexpands] at h
      split at h
      · rename_i hplan
        cases h
        exact .refused d _ hstopped hphase hexpands hplan
      · rename_i hplan
        exact absurd hplan (expandPlanPhases_ne_none (List.mem_of_getElem? hphase) hexpands)
      · rename_i hplan
        cases h
        exact .expanded d _ hstopped hphase hexpands hplan
    rw [if_neg hexpands] at h
    by_cases hskip : s.resume ∧ d.name ∈ s.completed
    · rw [if_pos hskip] at h
      cases h
      exact .skipped d hstopped hphase hexpands hskip.1 hskip.2
    · rw [if_neg hskip] at h
      obtain ⟨e, he, rfl⟩ := Option.map_eq_some_iff.mp h
      exact .executed d e ⟨hstopped, hphase, hexpands, hskip⟩ he

/-! ### Expansions -/

/-- The phases a plan puts in the place of the one that declares it. -/
def splices (target : PhaseDef) (units : List PlanUnit) : List PhaseDef :=
  units.flatMap fun unit => [unitSliceDef target unit, unitGateDef unit]

lemma not_expands_of_mem_splices {target : PhaseDef} {units : List PlanUnit}
    (h : d ∈ splices target units) : ¬ d.Expands := by
  obtain ⟨unit, -, hunit⟩ := List.mem_flatMap.mp h
  simp only [List.mem_cons, List.not_mem_nil, or_false] at hunit
  rcases hunit with rfl | rfl
  · exact not_not.mpr rfl
  · exact not_not.mpr rfl

lemma expandPlanPhases_some {phases expanded : List PhaseDef}
    {plan : Except String (List PlanUnit)}
    (h : expandPlanPhases w phases plan = .ok (some expanded)) :
    ∃ target units, plan = .ok units ∧ (phases.filter fun d => d.Expands) = [target] ∧
      collision ((phases.filter fun d => ¬ d.Expands).map PhaseDef.name)
        ((splices target units).map PhaseDef.name) = none ∧
      expanded = phases.flatMap fun d => if d.Expands then splices target units else [d] := by
  rw [expandPlanPhases] at h
  split at h
  · cases h
  · rename_i target htarget
    split_ifs at h
    cases plan with
    | error e => cases h
    | ok units =>
      simp only [Except.bind] at h
      split at h
      · cases h
      · rename_i hcollision
        cases h
        exact ⟨target, units, rfl, htarget, hcollision, rfl⟩
  · cases h

lemma not_expands_of_expanded {phases expanded : List PhaseDef}
    {plan : Except String (List PlanUnit)}
    (h : expandPlanPhases w phases plan = .ok (some expanded)) :
    ∀ d ∈ expanded, ¬ d.Expands := by
  obtain ⟨target, units, -, -, -, rfl⟩ := expandPlanPhases_some h
  intro d hd
  obtain ⟨d', -, hd'⟩ := List.mem_flatMap.mp hd
  split_ifs at hd' with hexpands
  · exact not_expands_of_mem_splices hd'
  · rw [List.mem_singleton] at hd'
    rwa [hd']

/-! ### Rewinding -/

section Rewind

variable {name reason : String} {target : ℕ} {producer : PhaseDef}

lemma retain_cases (s : LoopState) (name reason : String) :
    (popRecord name s.records = none ∧ s.retainAndRemovePhaseRecord name reason = s) ∨
    ∃ record rest rows, popRecord name s.records = some (record, rest) ∧
      s.retainAndRemovePhaseRecord name reason = { s with
        records := rest
        priorInvocations := Function.update s.priorInvocations name rows
        executionCount := Function.update s.executionCount name rows.length } := by
  rw [retainAndRemovePhaseRecord]
  cases hpop : popRecord name s.records with
  | none      => exact Or.inl ⟨rfl, rfl⟩
  | some pair => exact Or.inr ⟨pair.1, pair.2, _, rfl, rfl⟩

@[simp] lemma retain_phases :
    (s.retainAndRemovePhaseRecord name reason).phases = s.phases := by
  rcases s.retain_cases name reason with ⟨-, h⟩ | ⟨_, _, _, -, h⟩ <;> rw [h]

@[simp] lemma retain_correctionBudget :
    (s.retainAndRemovePhaseRecord name reason).correctionBudget = s.correctionBudget := by
  rcases s.retain_cases name reason with ⟨-, h⟩ | ⟨_, _, _, -, h⟩ <;> rw [h]

@[simp] lemma rewind_phases : (s.rewind d pr target producer).phases = s.phases := by
  simp only [rewind]
  split_ifs <;> simp

@[simp] lemma rewind_correctionBudget :
    (s.rewind d pr target producer).correctionBudget = s.correctionBudget := by
  simp only [rewind]
  split_ifs <;> simp

@[simp] lemma retain_events :
    (s.retainAndRemovePhaseRecord name reason).events = s.events := by
  rcases s.retain_cases name reason with ⟨-, h⟩ | ⟨_, _, _, -, h⟩ <;> rw [h]

lemma rewind_events : (s.rewind d pr target producer).events =
    s.events ++ [.invalidated ((s.phases.drop target).map PhaseDef.name)] := by
  simp only [rewind]
  split_ifs <;> simp only [retain_events]

end Rewind

/-! ### Progress -/

/-- The phases that declare a plan, the corrections that are left, and the phases that are left. -/
def remaining (s : LoopState) : ℕ ×ₗ ℕ ×ₗ ℕ :=
  toLex ((s.phases.filter fun d => d.Expands).length,
    toLex ((s.phases.map fun d => declaredGateRetry d - s.correctionBudget d.name).sum,
      s.phases.length - s.index))

lemma remaining_lt_of_next (hphases : t.phases = s.phases)
    (hbudget : t.correctionBudget = s.correctionBudget) (hindex : t.index = s.index + 1)
    (hlt : s.index < s.phases.length) : t.remaining < s.remaining := by
  rw [remaining, remaining, hphases, hbudget, hindex]
  refine Prod.Lex.toLex_lt_toLex.mpr (Or.inr ⟨rfl, Prod.Lex.toLex_lt_toLex.mpr (Or.inr ⟨rfl, ?_⟩)⟩)
  dsimp only
  omega

lemma remaining_lt_of_correction (hd : d ∈ s.phases) (hphases : t.phases = s.phases)
    (hlt : s.correctionBudget d.name < declaredGateRetry d)
    (hbudget : t.correctionBudget =
      Function.update s.correctionBudget d.name (s.correctionBudget d.name + 1)) :
    t.remaining < s.remaining := by
  rw [remaining, remaining, hphases, hbudget]
  refine Prod.Lex.toLex_lt_toLex.mpr (Or.inr ⟨rfl, Prod.Lex.toLex_lt_toLex.mpr (Or.inl ?_)⟩)
  refine List.sum_lt_sum _ _ (fun d' _ => ?_) ⟨d, hd, ?_⟩
  · refine Nat.sub_le_sub_left ?_ _
    by_cases hname : d'.name = d.name
    · rw [hname, Function.update_self]
      exact Nat.le_succ _
    · rw [Function.update_of_ne hname]
  · rw [Function.update_self]
    omega

lemma Turned.progress (h : Turned w scene s t) (hrunning : ¬ s.Ended) :
    t.Ended ∨ t.remaining < s.remaining := by
  cases h with
  | ended hended => exact absurd hended hrunning
  | refused d message _ hphase =>
    right
    exact remaining_lt_of_next rfl rfl rfl (List.getElem?_eq_some_iff.mp hphase).1
  | expanded d phases _ hphase hexpands hplan =>
    right
    have hnone : (phases.filter fun d => d.Expands) = [] :=
      List.filter_eq_nil_iff.mpr fun d hd => by simpa using not_expands_of_expanded hplan d hd
    have hsome : 0 < (s.phases.filter fun d => d.Expands).length :=
      List.length_pos_of_mem (List.mem_filter.mpr ⟨List.mem_of_getElem? hphase, by simpa⟩)
    refine Prod.Lex.toLex_lt_toLex.mpr (Or.inl ?_)
    dsimp only
    rw [hnone]
    exact hsome
  | skipped d _ hphase =>
    right
    exact remaining_lt_of_next rfl rfl rfl (List.getElem?_eq_some_iff.mp hphase).1
  | executed d e hexecutes =>
    have hphase := hexecutes.2.1
    generalize hu : ({ s with
      index := s.index + 1
      locals := e.locals
      events := s.events ++ e.calls.map Event.invoked } : LoopState) = u
    have hphases : u.phases = s.phases := by rw [← hu]
    have hbudget : u.correctionBudget = s.correctionBudget := by rw [← hu]
    have hindex : u.index = s.index + 1 := by rw [← hu]
    generalize hc : u.conclude w s.index d e.record = c
    have hconcluded : Concluded w u s.index d e.record c := by
      rw [← hc]
      exact u.concluded s.index d e.record
    cases hconcluded with
    | checkpoint => exact Or.inl (Or.inl rfl)
    | next       =>
      right
      exact remaining_lt_of_next hphases hbudget hindex (List.getElem?_eq_some_iff.mp hphase).1
    | stopped    => exact Or.inl (Or.inl rfl)
    | rewound target producer _ _ _ _ hretry =>
      right
      refine remaining_lt_of_correction (d := d) (List.mem_of_getElem? hphase) ?_ ?_ ?_
      · rw [rewind_phases]
        exact hphases
      · rw [← hbudget]
        exact hretry
      · rw [rewind_correctionBudget]
        dsimp only
        rw [hbudget]

end LoopState

theorem returns_of_forall_some {phases : List PhaseDef} {opening : Opening} {scenes : ℕ → Scene}
    (h : ∀ n, ∃ s, after w (start w phases opening) scenes n = some s) :
    ∃ result, Returns w (start w phases opening) scenes result := by
  choose state hstate using h
  by_contra hnever
  have hrunning : ∀ n, ¬ (state n).Ended := fun n hended => hnever ⟨state n, n, hstate n, hended⟩
  obtain ⟨n, hn⟩ := WellFounded.not_rel_apply_succ (r := (· < ·)) fun n => (state n).remaining
  have hturn : (state n).turn w (scenes n) = some (state (n + 1)) := by
    have := hstate (n + 1)
    rwa [after, hstate n, Option.bind_some] at this
  rcases (LoopState.Turned.of_turn hturn).progress (hrunning n) with hended | hlt
  · exact hrunning (n + 1) hended
  · exact hn hlt

/-- Whatever its phases do, a workflow comes to its end: an exception leaves the runner, or the loop
returns. -/
theorem loop_ends (w : Settings) (phases : List PhaseDef) (opening : Opening) (scenes : ℕ → Scene) :
    (∃ n, after w (start w phases opening) scenes n = none) ∨
      ∃ result, Returns w (start w phases opening) scenes result := by
  by_cases hleft : ∃ n, after w (start w phases opening) scenes n = none
  · exact .inl hleft
  · rw [not_exists] at hleft
    exact .inr (returns_of_forall_some fun n => Option.ne_none_iff_exists'.mp (hleft n))

end AgenticDynamics.Execution
