import AgenticDynamics.Execution.PhaseContainment

/-!
# What success means

A run that ends in order has one record for each phase it has not skipped, in the order of the
phases. The flag that a resume has nothing left to do is set before the loop, and the loop may still
expand a plan.
-/

namespace AgenticDynamics.Execution

open Python

variable {w : Settings} {scene : Scene} {s t : LoopState} {d : PhaseDef} {pr : PhaseResult}
  {name reason : String}

/-! ### What is asked of a result -/

namespace LoopState

/-- The phase was skipped on a completion, and no correction has invalidated it since. -/
def Skipped (s : LoopState) (name : String) : Prop :=
  name ∈ s.completed ∧ ∃ before later, s.events = before ++ .skipped name :: later ∧
    ∀ names, .invalidated names ∈ later → name ∉ names

/-- If the result is ok, each phase has exactly one record, which is ok, or was skipped, and the
records are in the order of the phases; and the result is ok exactly if its state is succeeded. -/
def Truthful (s : LoopState) : Prop :=
  (s.ok = true → (s.records.map PhaseResult.phase).Sublist (s.phases.map PhaseDef.name) ∧
    ∀ d ∈ s.phases,
      (∃ pr, (s.records.filter fun pr => pr.phase = d.name) = [pr] ∧ pr.status = .ok) ∨
        s.Skipped d.name) ∧
  (s.ok = true ↔ s.state = .succeeded)

end LoopState

/-- The resume has evidence for every phase, and every checkpoint it read is approved. -/
def Opening.Covers (opening : Opening) (phases : List PhaseDef) : Prop :=
  ∃ r, opening.resume = some r ∧ (∀ decision ∈ r.decisions, decision.2 = true) ∧ phases ≠ [] ∧
    ∀ d ∈ phases, d.name ∈ r.completed ∨ d.name ∈ r.decisions.map Prod.fst

/-! ### What the gates leave alone -/

namespace PhaseResult

def identity (pr : PhaseResult) : String × String := (pr.phase, pr.kind)

/-- What no gate changes: the phase, and what it has cost. -/
def booked (pr : PhaseResult) : (String × String) × ℚ × TokenCounts × List AttemptRow :=
  (pr.identity, pr.costUsd, pr.tokens, pr.attempts)

lemma refuse_booked (pr : PhaseResult) (message : String) :
    (pr.refuse message).booked = pr.booked := by
  rw [refuse]
  split_ifs <;> rfl

lemma enforce_booked (pr : PhaseResult) (message : Option String) :
    (pr.enforce message).booked = pr.booked := by
  cases message with
  | none         => rfl
  | some message => exact pr.refuse_booked message

lemma enforceCommitPrefix_booked (pr : PhaseResult) (verdict : CommitVerdict) :
    (pr.enforceCommitPrefix verdict).booked = pr.booked := by
  cases verdict with
  | conforming         => rfl
  | noChanges message  =>
    rw [enforceCommitPrefix]
    split_ifs <;> rfl
  | canonicalized note => rfl
  | violated message   => exact pr.refuse_booked message

lemma runTestGate_booked (repr : Json → String) (pr : PhaseResult) (suite : SuiteRun)
    (targets : List String) (emptyRefuses : Bool) :
    (runTestGate repr pr suite targets emptyRefuses).booked = pr.booked := by
  rw [runTestGate]
  cases suite.failure with
  | some error => rfl
  | none       =>
    dsimp only
    split
    · rfl
    · split <;> rfl

lemma gated_booked (pr : PhaseResult) (gates : Gates) (preHead : String) :
    (pr.gated w d gates preHead).booked = pr.booked := by
  have hgate : (if d.testGate = true ∧ pr.status = .ok then
      runTestGate w.repr pr gates.suite (d.tests.getD []) true else pr).booked = pr.booked := by
    split
    · exact runTestGate_booked ..
    · rfl
  rw [gated]
  generalize (if d.testGate = true ∧ pr.status = .ok then
      runTestGate w.repr pr gates.suite (d.tests.getD []) true else pr) = pr' at hgate
  split
  · rw [enforce_booked, enforceCommitPrefix_booked, enforce_booked, hgate]
  · rw [enforceCommitPrefix_booked, enforce_booked, hgate]

lemma committed_booked (pr : PhaseResult) (gates : Gates) :
    (pr.committed w gates).booked = pr.booked := by
  rw [committed]
  split
  · split <;> rfl
  · split
    · cases gates.commit <;> rfl
    · rfl

lemma timed_booked (pr : PhaseResult) (timedOut : Bool) : (pr.timed timedOut).booked = pr.booked := by
  rw [timed]
  split <;> rfl

end PhaseResult

lemma foldl_addAttempt_identity (pr : PhaseResult) (rows : List AttemptRow) :
    (rows.foldl PhaseResult.addAttempt pr).identity = pr.identity := by
  induction rows generalizing pr with
  | nil            => rfl
  | cons row rows ih => exact ih (pr.addAttempt row)

lemma applyAttemptTotals_identity (pr : PhaseResult) (rows : List AttemptRow) (includeLast : Bool) :
    (applyAttemptTotals pr rows includeLast).identity = pr.identity := by
  rw [applyAttemptTotals]
  split <;> exact foldl_addAttempt_identity pr _

lemma attemptLoop_identity (seeded executions : ℕ) (invocation : ℕ → Invocation) (left attemptNo : ℕ)
    (model : String) (pr : PhaseResult) (rows : List AttemptRow) :
    (attemptLoop w d seeded executions invocation left attemptNo model pr rows).record.identity =
      pr.identity := by
  induction left generalizing attemptNo model pr rows with
  | zero =>
    rw [attemptLoop]
    split
    · rfl
    · dsimp only
      split <;> rfl
  | succ left ih =>
    rw [attemptLoop]
    split
    · rfl
    · dsimp only
      split
      · rfl
      · split
        · rename_i hleft _
          cases hleft
          exact ih ..
        · rfl
      · split
        · rename_i hleft _
          cases hleft
          exact ih ..
        · rfl

lemma tryPhase_identity (w : Settings) (d : PhaseDef) (scene : Scene) (seed : List AttemptRow)
    (executions : ℕ) (pr : PhaseResult) (l : Locals) :
    (tryPhase w d seed executions scene pr l).record.identity = pr.identity := by
  rw [tryPhase]
  split
  · rw [tryTest]
    split
    · rfl
    · rfl
    · split
      · rfl
      · exact congrArg Prod.fst (PhaseResult.runTestGate_booked ..)
  · rw [tryAgent]
    split
    · rfl
    · rw [tryAdmitted]
      split
      · rfl
      · dsimp only
        split
        · exact attemptLoop_identity ..
        · exact (applyAttemptTotals_identity ..).trans (attemptLoop_identity ..)
        · split
          · exact attemptLoop_identity ..
          · refine (applyAttemptTotals_identity ..).trans ?_
            split <;> exact attemptLoop_identity ..

lemma afterTry_booked {gates : Gates} {l : Locals} {pr' : PhaseResult}
    (h : afterTry w d gates pr l = some pr') : pr'.booked = pr.booked := by
  rw [afterTry] at h
  split_ifs at h
  · cases h
    rw [PhaseResult.timed_booked, PhaseResult.committed_booked]
  · obtain ⟨preHead, -, rfl⟩ := Option.map_eq_some_iff.mp h
    rw [PhaseResult.enforce_booked, PhaseResult.timed_booked, PhaseResult.committed_booked,
      PhaseResult.gated_booked]

lemma executePhase_identity {seed : List AttemptRow} {executions : ℕ} {l : Locals} {e : Executed}
    (h : executePhase w d seed executions scene l = some e) :
    e.record.identity = (d.name, d.kind) := by
  obtain ⟨pr, hpr, h⟩ := Option.bind_eq_some_iff.mp h
  obtain ⟨pr', hafter, rfl⟩ := Option.map_eq_some_iff.mp h
  refine (congrArg Prod.fst (afterTry_booked hafter)).trans ?_
  have htry := tryPhase_identity w d scene seed executions { phase := d.name, kind := d.kind } l
  generalize tryPhase w d seed executions scene { phase := d.name, kind := d.kind } l = trial
    at htry hpr hafter
  rw [Trial.handled] at hpr
  cases hraised : trial.raised with
  | none   =>
    rw [hraised] at hpr
    cases hpr
    exact htry
  | some e =>
    rw [hraised] at hpr
    obtain ⟨rows, -, rfl⟩ := Option.map_eq_some_iff.mp hpr
    exact (applyAttemptTotals_identity ..).trans htry

/-! ### Expansions -/

lemma nodup_of_collision {taken names : List String} (h : collision taken names = none)
    (htaken : taken.Nodup) : (taken ++ names).Nodup := by
  induction names generalizing taken with
  | nil               => rwa [List.append_nil]
  | cons name names ih =>
    rw [collision] at h
    split_ifs at h with hmem
    have := ih h (List.nodup_cons.mpr ⟨hmem, htaken⟩)
    rw [List.cons_append] at this
    exact List.nodup_middle.mpr this

lemma expandPlanPhases_spec {phases expanded : List PhaseDef} {plan : Except String (List PlanUnit)}
    {index : ℕ} (h : expandPlanPhases w phases plan = .ok (some expanded))
    (hphase : phases[index]? = some d) (hexpands : d.Expands)
    (hnames : (phases.map PhaseDef.name).Nodup) :
    expanded.take index = phases.take index ∧ (expanded.map PhaseDef.name).Nodup := by
  obtain ⟨target, units, -, htarget, hcollision, rfl⟩ := LoopState.expandPlanPhases_some h
  obtain ⟨hlt, hd⟩ := List.getElem?_eq_some_iff.mp hphase
  obtain ⟨before, later, rfl, hlength⟩ : ∃ before later, phases = before ++ d :: later ∧
      before.length = index :=
    ⟨phases.take index, phases.drop (index + 1), by
      rw [← hd, List.getElem_cons_drop, List.take_append_drop], by
      rw [List.length_take, min_eq_left hlt.le]⟩
  have hfilter : (before.filter fun d => d.Expands) = [] ∧
      (later.filter fun d => d.Expands) = [] := by
    rw [List.filter_append, List.filter_cons_of_pos (by simpa using hexpands)] at htarget
    have hlen := congrArg List.length htarget
    simp only [List.length_append, List.length_cons, List.length_nil] at hlen
    exact ⟨List.length_eq_zero_iff.mp (by omega), List.length_eq_zero_iff.mp (by omega)⟩
  have hkeep {phases : List PhaseDef} (hnone : (phases.filter fun d => d.Expands) = []) :
      (phases.flatMap fun d => if d.Expands then LoopState.splices target units else [d]) = phases ∧
        (phases.filter fun d => ¬ d.Expands) = phases := by
    have hnot : ∀ d ∈ phases, ¬ d.Expands := by simpa using List.filter_eq_nil_iff.mp hnone
    constructor
    · calc phases.flatMap (fun d => if d.Expands then LoopState.splices target units else [d])
          = phases.flatMap fun d => [d] :=
            List.flatMap_congr fun d hd => if_neg (hnot d hd)
        _ = phases := List.flatMap_singleton' phases
    · exact List.filter_eq_self.mpr fun d hd => by simpa using hnot d hd
  rw [List.filter_append, List.filter_cons_of_neg (by simpa), (hkeep hfilter.1).2,
    (hkeep hfilter.2).2] at hcollision
  rw [List.flatMap_append, List.flatMap_cons, if_pos hexpands, (hkeep hfilter.1).1,
    (hkeep hfilter.2).1]
  constructor
  · rw [← hlength, List.take_left', List.take_left'] <;> rfl
  · rw [List.map_append, List.map_cons] at hnames
    have hreserved : ((before ++ later).map PhaseDef.name).Nodup := by
      rw [List.map_append]
      exact (List.nodup_middle.mp hnames).of_cons
    have hnew := nodup_of_collision hcollision hreserved
    rw [List.map_append, List.append_assoc] at hnew
    rw [List.map_append, List.map_append]
    exact ((List.perm_append_comm.append_left _).nodup_iff).mp hnew

/-! ### Removed records -/

lemma popRecord_eq_none {records : List PhaseResult}
    (h : LoopState.popRecord name records = none) : name ∉ records.map PhaseResult.phase := by
  induction records with
  | nil                   => exact List.not_mem_nil
  | cons record records ih =>
    rw [LoopState.popRecord] at h
    cases hpop : LoopState.popRecord name records with
    | some pair => simp [hpop] at h
    | none      =>
      simp only [hpop] at h
      split_ifs at h with hname
      rw [List.map_cons, List.mem_cons, not_or]
      exact ⟨fun heq => hname heq.symm, ih hpop⟩

lemma popRecord_eq_some {records rest : List PhaseResult} {record : PhaseResult}
    (h : LoopState.popRecord name records = some (record, rest)) :
    ∃ before later, records = before ++ record :: later ∧ rest = before ++ later ∧
      record.phase = name := by
  induction records generalizing rest with
  | nil                  => cases h
  | cons first records ih =>
    rw [LoopState.popRecord] at h
    cases hpop : LoopState.popRecord name records with
    | some pair =>
      simp only [hpop, Option.some.injEq, Prod.mk.injEq] at h
      obtain ⟨rfl, rfl⟩ := h
      obtain ⟨before, later, hrecords, hrest, hname⟩ := ih hpop
      exact ⟨first :: before, later, by rw [hrecords]; rfl, by rw [hrest]; rfl, hname⟩
    | none      =>
      simp only [hpop] at h
      split_ifs at h with hname
      cases h
      exact ⟨[], records, rfl, rfl, hname⟩

lemma filter_phase_eq_singleton {records : List PhaseResult}
    (hnodup : (records.map PhaseResult.phase).Nodup) (hpr : pr ∈ records) (hname : pr.phase = name) :
    (records.filter fun pr => pr.phase = name) = [pr] := by
  obtain ⟨before, later, rfl⟩ := List.append_of_mem hpr
  rw [List.map_append, List.map_cons, List.nodup_middle, List.nodup_cons, List.mem_append,
    not_or] at hnodup
  have hnone {records : List PhaseResult} (hnotin : pr.phase ∉ records.map PhaseResult.phase) :
      (records.filter fun pr => pr.phase = name) = [] :=
    List.filter_eq_nil_iff.mpr fun other hother => by
      rw [decide_eq_true_eq, ← hname]
      exact fun heq => hnotin (heq ▸ List.mem_map_of_mem hother)
  rw [List.filter_append, List.filter_cons_of_pos (by simpa using hname), hnone hnodup.1.1,
    hnone hnodup.1.2, List.nil_append]

lemma retain_eq (hnodup : (s.records.map PhaseResult.phase).Nodup) (name reason : String) :
    ∃ records prior count, s.retainAndRemovePhaseRecord name reason =
        { s with records, priorInvocations := prior, executionCount := count } ∧
      records.map PhaseResult.phase = (s.records.map PhaseResult.phase).filter (· ≠ name) := by
  rcases s.retain_cases name reason with ⟨hpop, h⟩ | ⟨record, rest, rows, hpop, h⟩
  · refine ⟨_, _, _, h, (List.filter_eq_self.mpr fun other hother => ?_).symm⟩
    have : other ≠ name := fun heq => popRecord_eq_none hpop (heq ▸ hother)
    simpa using this
  · refine ⟨_, _, _, h, ?_⟩
    obtain ⟨before, later, hrecords, rfl, rfl⟩ := popRecord_eq_some hpop
    simp only [hrecords, List.map_append, List.map_cons] at hnodup ⊢
    have hnotin := (List.nodup_cons.mp (List.nodup_middle.mp hnodup)).1
    rw [List.filter_append, List.filter_cons_of_neg (by simp), ← List.filter_append]
    refine (List.filter_eq_self.mpr fun other hother => ?_).symm
    have : other ≠ record.phase := fun heq => hnotin (heq ▸ hother)
    simpa using this

lemma rewind_eq (hnodup : (s.records.map PhaseResult.phase).Nodup) (d : PhaseDef)
    (pr : PhaseResult) (target : ℕ) (producer : PhaseDef) :
    ∃ records prior count, s.rewind d pr target producer = { s with
        completed := s.completed.filter (· ∉ (s.phases.drop target).map PhaseDef.name)
        inheritedPhases := s.inheritedPhases.filter (· ∉ (s.phases.drop target).map PhaseDef.name)
        records
        priorInvocations := prior
        executionCount := count
        index := target
        events := s.events ++ [.invalidated ((s.phases.drop target).map PhaseDef.name)] } ∧
      records.map PhaseResult.phase = (s.records.map PhaseResult.phase).filter
        fun name => name ≠ d.name ∧ (d.kind = "test" → name ≠ producer.name) := by
  simp only [LoopState.rewind]
  generalize "correction: " ++ String.ofList
    ((if pr.error = "" then "verification failed" else pr.error).toList.take 120) = reason
  generalize "correction: re-run after " ++ d.name ++ " failed verification" = reason'
  generalize s.completed.filter (· ∉ (s.phases.drop target).map PhaseDef.name) = completed
  generalize s.inheritedPhases.filter (· ∉ (s.phases.drop target).map PhaseDef.name) =
    inheritedPhases
  obtain ⟨records, prior, count, hretain, hrecords⟩ := retain_eq
    (s := { s with completed, inheritedPhases }) hnodup d.name reason
  rw [hretain]
  by_cases hkind : d.kind = "test"
  · have hrest : (records.map PhaseResult.phase).Nodup := hrecords ▸ hnodup.filter _
    obtain ⟨records', prior', count', hretain', hrecords'⟩ := retain_eq (s := { s with
      completed, inheritedPhases, records, priorInvocations := prior, executionCount := count })
      hrest producer.name reason'
    rw [if_pos hkind, hretain']
    refine ⟨records', prior', count', rfl, ?_⟩
    rw [hrecords', hrecords, List.filter_filter]
    refine List.filter_congr fun name _ => ?_
    simp [hkind, Bool.and_comm]
  · rw [if_neg hkind]
    refine ⟨records, prior, count, rfl, ?_⟩
    rw [hrecords]
    refine List.filter_congr fun name _ => ?_
    simp [hkind]

/-! ### The order of the records -/

namespace LoopState

/-- The phases have different names, and the records follow the phases in front of the index. -/
structure Ordered (s : LoopState) : Prop where
  names : (s.phases.map PhaseDef.name).Nodup
  order : (s.records.map PhaseResult.phase).Sublist ((s.phases.take s.index).map PhaseDef.name)

lemma take_succ_of_phase (hphase : s.phases[s.index]? = some d) :
    s.phases.take (s.index + 1) = s.phases.take s.index ++ [d] := by
  rw [List.take_add_one, hphase]
  rfl

lemma Ordered.nodup_records (h : s.Ordered) : (s.records.map PhaseResult.phase).Nodup :=
  (h.order.trans ((List.take_sublist ..).map _)).nodup h.names

lemma Ordered.recorded (h : s.Ordered) (t : LoopState) (pr : PhaseResult)
    (hphase : s.phases[s.index]? = some d) (hpr : pr.phase = d.name)
    (hphases : t.phases = s.phases) (hindex : t.index = s.index + 1)
    (hrecords : t.records = s.records ++ [pr]) : t.Ordered where
  names := hphases ▸ h.names
  order := by
    rw [hphases, hindex, take_succ_of_phase hphase, hrecords, List.map_append, List.map_append]
    refine h.order.append ?_
    rw [List.map_singleton, List.map_singleton, hpr]

lemma Ordered.skipped (h : s.Ordered) (t : LoopState) (hphase : s.phases[s.index]? = some d)
    (hphases : t.phases = s.phases) (hindex : t.index = s.index + 1)
    (hrecords : t.records = s.records) : t.Ordered where
  names := hphases ▸ h.names
  order := by
    rw [hphases, hindex, hrecords, take_succ_of_phase hphase, List.map_append]
    exact h.order.trans (List.sublist_append_left _ _)

lemma Ordered.expanded (h : s.Ordered) {phases : List PhaseDef}
    {plan : Except String (List PlanUnit)} (hphase : s.phases[s.index]? = some d)
    (hexpands : d.Expands) (hplan : expandPlanPhases w s.phases plan = .ok (some phases)) :
    Ordered { s with phases } := by
  obtain ⟨htake, hnames⟩ := expandPlanPhases_spec hplan hphase hexpands h.names
  refine ⟨hnames, ?_⟩
  dsimp only
  rw [htake]
  exact h.order

lemma Ordered.rewound (h : s.Ordered) {u : LoopState} {target : ℕ} {producer : PhaseDef}
    (hphase : s.phases[s.index]? = some d) (hpr : pr.phase = d.name) (hphases : u.phases = s.phases)
    (hrecords : u.records = s.records ++ [pr])
    (htarget : if d.kind = "test" then target + 1 = s.index else target = s.index)
    (hproducer : s.phases[target]? = some producer) : (u.rewind d pr target producer).Ordered := by
  have hsplit : s.phases.take (s.index + 1) = s.phases.take target ++
      (if d.kind = "test" then [producer, d] else [d]) := by
    rw [take_succ_of_phase hphase]
    split_ifs at htarget ⊢ with hkind
    · rw [← htarget, List.take_add_one, hproducer, List.append_assoc]
      rfl
    · rw [htarget]
  have hgone : ((if d.kind = "test" then [producer, d] else [d]).map PhaseDef.name).filter
      (fun name => name ≠ d.name ∧ (d.kind = "test" → name ≠ producer.name)) = [] := by
    split_ifs with hkind <;> simp [hkind]
  have horder : (u.records.map PhaseResult.phase).Sublist
      ((s.phases.take (s.index + 1)).map PhaseDef.name) := by
    rw [hrecords, take_succ_of_phase hphase, List.map_append, List.map_append]
    refine h.order.append ?_
    rw [List.map_singleton, List.map_singleton, hpr]
  have hnodup : (u.records.map PhaseResult.phase).Nodup :=
    (horder.trans ((List.take_sublist ..).map _)).nodup h.names
  obtain ⟨records, prior, count, hrewind, hleft⟩ := rewind_eq hnodup d pr target producer
  rw [hrewind]
  refine ⟨hphases ▸ h.names, ?_⟩
  dsimp only
  rw [hphases, hleft]
  refine (horder.filter _).trans ?_
  rw [hsplit, List.map_append, List.filter_append, hgone, List.append_nil]
  exact List.filter_sublist

lemma Ordered.executed (h : s.Ordered) (hexecutes : s.Executes d) {seed : List AttemptRow}
    {executions : ℕ} {e : Executed}
    (he : executePhase w d seed executions scene s.locals = some e) :
    ({ s with
      index := s.index + 1
      locals := e.locals
      events := s.events ++ e.calls.map Event.invoked : LoopState }.conclude w s.index d
        e.record).Ordered := by
  have hpr : e.record.phase = d.name := congrArg Prod.fst (executePhase_identity he)
  have hphase := hexecutes.2.1
  generalize hc : LoopState.conclude w _ s.index d e.record = c
  have hconcluded : Concluded w _ s.index d e.record c := hc ▸ concluded _ s.index d e.record
  clear hc
  cases hconcluded with
  | checkpoint =>
    exact h.recorded _ { e.record with status := .awaiting } hphase hpr rfl rfl rfl
  | next       => exact h.recorded _ e.record hphase hpr rfl rfl rfl
  | stopped    => exact h.recorded _ e.record hphase hpr rfl rfl rfl
  | rewound target producer _ _ _ _ _ htarget hproducer =>
    exact h.rewound hphase hpr rfl rfl htarget hproducer

lemma Ordered.turned (h : s.Ordered) (hturned : Turned w scene s t) : t.Ordered := by
  cases hturned with
  | ended => exact h
  | refused d message _ hphase => exact h.recorded _ _ hphase rfl rfl rfl rfl
  | expanded d phases _ hphase hexpands hplan => exact h.expanded hphase hexpands hplan
  | skipped d _ hphase => exact h.skipped _ hphase rfl rfl rfl
  | executed d e hexecutes he => exact h.executed hexecutes he

/-! ### The invariant of the loop -/

/-- The records follow the phases in front of the index, which are recorded or skipped; a loop that
was left by a break has a record that is not ok; and a run that has nothing to do stays so. -/
structure Orderly (s : LoopState) : Prop where
  names : (s.phases.map PhaseDef.name).Nodup
  order : (s.records.map PhaseResult.phase).Sublist ((s.phases.take s.index).map PhaseDef.name)
  covered : ∀ d ∈ s.phases.take s.index, d.name ∈ s.records.map PhaseResult.phase ∨
    s.Skipped d.name
  halted : s.awaiting.isSome → s.stopped
  broken : s.stopped → s.records = [] ∨ ∃ pr ∈ s.records, pr.status ≠ .ok
  idle : s.alreadyComplete → s.resume ∧ s.records = [] ∧ s.stopped = false ∧
    ∀ d ∈ s.phases, ¬ d.Expands ∧ d.name ∈ s.completed

lemma Skipped.later (h : s.Skipped name) (more : List Event) (hcompleted : name ∈ t.completed)
    (hevents : t.events = s.events ++ more)
    (hmore : ∀ names, .invalidated names ∈ more → name ∉ names) : t.Skipped name := by
  obtain ⟨-, before, later, hskip, hlater⟩ := h
  refine ⟨hcompleted, before, later ++ more, ?_, fun names hnames => ?_⟩
  · rw [hevents, hskip, List.append_assoc, List.cons_append]
  · rcases List.mem_append.mp hnames with hnames | hnames
    · exact hlater names hnames
    · exact hmore names hnames

lemma Orderly.ordered (h : s.Orderly) : s.Ordered := ⟨h.names, h.order⟩

lemma Orderly.recorded (h : s.Orderly) (t : LoopState) (pr : PhaseResult)
    (hphase : s.phases[s.index]? = some d) (hpr : pr.phase = d.name)
    (hphases : t.phases = s.phases) (hindex : t.index = s.index + 1)
    (hcompleted : t.completed = s.completed) (hrecords : t.records = s.records ++ [pr])
    {more : List Event} (hevents : t.events = s.events ++ more)
    (hmore : ∀ names, .invalidated names ∉ more) :
    ∀ d ∈ t.phases.take t.index, d.name ∈ t.records.map PhaseResult.phase ∨ t.Skipped d.name := by
  rw [hphases, hindex, take_succ_of_phase hphase, hrecords, List.map_append]
  intro d' hd'
  rw [List.mem_append]
  rcases List.mem_append.mp hd' with hd' | hd'
  · rcases h.covered d' hd' with hrecord | hskipped
    · exact Or.inl (Or.inl hrecord)
    · exact Or.inr (hskipped.later more (hcompleted ▸ hskipped.1) hevents
        fun names hnames => absurd hnames (hmore names))
  · rw [List.mem_singleton.mp hd', List.map_singleton, hpr]
    exact Or.inl (Or.inr (List.mem_singleton_self _))

lemma Orderly.not_alreadyComplete (h : s.Orderly) (hexecutes : s.Executes d) :
    s.alreadyComplete = false := by
  by_contra hcomplete
  rw [Bool.not_eq_false] at hcomplete
  obtain ⟨hresume, -, -, hcompleted⟩ := h.idle hcomplete
  exact hexecutes.2.2.2 ⟨hresume, (hcompleted d (List.mem_of_getElem? hexecutes.2.1)).2⟩

lemma Orderly.refused (h : s.Orderly) (hrunning : s.stopped = false)
    (hphase : s.phases[s.index]? = some d) (hexpands : d.Expands) (message : String) :
    (s.refuseExpansion w d message).Orderly := by
  exact {
    names := h.names
    order := (h.ordered.recorded (s.refuseExpansion w d message) _ hphase rfl rfl rfl rfl).order
    covered := h.recorded (s.refuseExpansion w d message) _ hphase rfl rfl rfl rfl rfl rfl (by simp)
    halted := fun hawaiting => by
      have := h.halted hawaiting
      rw [hrunning] at this
      cases this
    broken := fun _ => Or.inr ⟨_, List.mem_append_right _ (List.mem_singleton_self _), by simp⟩
    idle := fun hcomplete =>
      absurd hexpands ((h.idle hcomplete).2.2.2 d (List.mem_of_getElem? hphase)).1 }

lemma Orderly.expanded (h : s.Orderly) {phases : List PhaseDef}
    {plan : Except String (List PlanUnit)} (hphase : s.phases[s.index]? = some d)
    (hexpands : d.Expands) (hplan : expandPlanPhases w s.phases plan = .ok (some phases)) :
    Orderly { s with phases } := by
  have hordered := h.ordered.expanded hphase hexpands hplan
  exact { hordered with
    covered := by
      dsimp only
      rw [(expandPlanPhases_spec hplan hphase hexpands h.names).1]
      exact h.covered
    halted := h.halted
    broken := h.broken
    idle := fun hcomplete =>
      absurd hexpands ((h.idle hcomplete).2.2.2 d (List.mem_of_getElem? hphase)).1 }

lemma Orderly.skipped (h : s.Orderly) (hphase : s.phases[s.index]? = some d)
    (hcompleted : d.name ∈ s.completed) (inheritedPhases : List String) :
    Orderly { s with
      index := s.index + 1
      inheritedPhases
      events := s.events ++ [.skipped d.name] } := by
  exact {
    names := h.names
    order := (h.ordered.skipped { s with index := s.index + 1 } hphase rfl rfl rfl).order
    covered := by
      dsimp only
      rw [take_succ_of_phase hphase]
      intro d' hd'
      rcases List.mem_append.mp hd' with hd' | hd'
      · exact (h.covered d' hd').imp_right fun hskipped =>
          hskipped.later [.skipped d.name] hskipped.1 rfl (by simp)
      · rw [List.mem_singleton.mp hd']
        exact Or.inr ⟨hcompleted, s.events, [], rfl, by simp⟩
    halted := h.halted
    broken := h.broken
    idle := h.idle }

lemma Orderly.rewound (h : s.Orderly) (hexecutes : s.Executes d) {u : LoopState} {target : ℕ}
    {producer : PhaseDef} {more : List Event} (hpr : pr.phase = d.name)
    (hphases : u.phases = s.phases) (hcompleted : u.completed = s.completed)
    (hrecords : u.records = s.records ++ [pr]) (hevents : u.events = s.events ++ more)
    (hmore : ∀ names, .invalidated names ∉ more) (hstopped : u.stopped = s.stopped)
    (hawaiting : u.awaiting = s.awaiting) (hcomplete : u.alreadyComplete = s.alreadyComplete)
    (htarget : if d.kind = "test" then target + 1 = s.index else target = s.index)
    (hproducer : s.phases[target]? = some producer) :
    (u.rewind d pr target producer).Orderly := by
  have hphase := hexecutes.2.1
  have hle : target ≤ s.index := by
    split_ifs at htarget <;> omega
  have hapart : ∀ d' ∈ s.phases.take target,
      d'.name ∉ (s.phases.drop target).map PhaseDef.name := by
    have hnames := h.names
    rw [← List.take_append_drop target s.phases, List.map_append] at hnames
    exact fun d' hd' => List.disjoint_of_nodup_append hnames (List.mem_map_of_mem hd')
  have hdrop : ∀ d', d' ∈ s.phases.drop target → ∀ d'' ∈ s.phases.take target,
      d''.name ≠ d'.name := fun d' hd' d'' hd'' heq =>
    hapart d'' hd'' (heq ▸ List.mem_map_of_mem hd')
  have hd : d ∈ s.phases.drop target := by
    refine List.mem_of_getElem? (i := s.index - target) ?_
    rw [List.getElem?_drop, Nat.add_sub_cancel' hle]
    exact hphase
  have hp : producer ∈ s.phases.drop target := by
    refine List.mem_of_getElem? (i := 0) ?_
    rw [List.getElem?_drop]
    exact hproducer
  have hnodup : (u.records.map PhaseResult.phase).Nodup := by
    have hrecorded := h.ordered.recorded { u with index := s.index + 1 } pr hphase hpr hphases rfl
      hrecords
    exact hrecorded.nodup_records
  have hordered := h.ordered.rewound hphase hpr hphases hrecords htarget hproducer
  obtain ⟨records, prior, count, hrewind, hleft⟩ := rewind_eq hnodup d pr target producer
  rw [hrewind] at hordered ⊢
  exact { hordered with
    covered := by
      dsimp only
      rw [hphases, hleft]
      intro d' hd'
      have hne := hdrop d hd d' hd'
      have hne' := hdrop producer hp d' hd'
      rcases h.covered d' (List.take_subset_take_left _ hle hd') with hrecord | hskipped
      · left
        refine List.mem_filter.mpr ⟨?_, by simp [hne, hne']⟩
        rw [hrecords, List.map_append]
        exact List.mem_append_left _ hrecord
      · right
        have hkept : d'.name ∈ u.completed.filter
            (· ∉ (s.phases.drop target).map PhaseDef.name) :=
          List.mem_filter.mpr ⟨hcompleted ▸ hskipped.1, by simpa using hapart d' hd'⟩
        refine hskipped.later _ hkept (by dsimp only; rw [hevents, List.append_assoc]) ?_
        intro names hnames
        rcases List.mem_append.mp hnames with hnames | hnames
        · exact absurd hnames (hmore names)
        · cases List.mem_singleton.mp hnames
          exact hapart d' hd'
    halted := by
      dsimp only
      rw [hstopped, hawaiting]
      exact h.halted
    broken := by
      dsimp only
      rw [hstopped, hexecutes.1]
      exact fun hfalse => nomatch hfalse
    idle := by
      dsimp only
      rw [hcomplete, h.not_alreadyComplete hexecutes]
      exact fun hfalse => nomatch hfalse }

lemma Orderly.executed (h : s.Orderly) (hexecutes : s.Executes d) {seed : List AttemptRow}
    {executions : ℕ} {e : Executed}
    (he : executePhase w d seed executions scene s.locals = some e) :
    ({ s with
      index := s.index + 1
      locals := e.locals
      events := s.events ++ e.calls.map Event.invoked : LoopState }.conclude w s.index d
        e.record).Orderly := by
  have hpr : e.record.phase = d.name := congrArg Prod.fst (executePhase_identity he)
  have hphase := hexecutes.2.1
  have hincomplete := h.not_alreadyComplete hexecutes
  have hawaiting : s.awaiting.isSome = true → False := fun hawaiting => by
    have := h.halted hawaiting
    rw [hexecutes.1] at this
    cases this
  have hmore (status : PhaseStatus) (names : List String) :
      .invalidated names ∉ e.calls.map Event.invoked ++ [.executed d.name status] := by
    simp
  have hordered := h.ordered.executed hexecutes he
  generalize hc : LoopState.conclude w _ s.index d e.record = c at hordered ⊢
  have hconcluded : Concluded w _ s.index d e.record c := hc ▸ concluded _ s.index d e.record
  clear hc
  cases hconcluded with
  | checkpoint =>
    have hcovered := h.recorded { s with
        index := s.index + 1
        locals := e.locals
        records := s.records ++ [{ e.record with status := .awaiting }]
        awaiting := some d.name
        events := s.events ++ e.calls.map Event.invoked ++ [.executed d.name .awaiting]
        stopped := true }
      { e.record with status := .awaiting } hphase hpr rfl rfl rfl rfl
      (List.append_assoc ..) (hmore .awaiting)
    exact { hordered with
      covered := hcovered
      halted := fun _ => rfl
      broken := fun _ => Or.inr ⟨_, List.mem_append_right _ (List.mem_singleton_self _), by simp⟩
      idle := fun hcomplete => absurd hcomplete (by simp [hincomplete]) }
  | next hnext =>
    have hcovered := h.recorded { s with
        index := s.index + 1
        locals := e.locals
        records := s.records ++ [e.record]
        events := s.events ++ e.calls.map Event.invoked ++ [.executed d.name e.record.status] }
      e.record hphase hpr rfl rfl rfl rfl (List.append_assoc ..) (hmore _)
    exact { hordered with
      covered := hcovered
      halted := fun hsome => (hawaiting hsome).elim
      broken := fun hstopped => by
        dsimp only at hstopped
        rw [hexecutes.1] at hstopped
        cases hstopped
      idle := fun hcomplete => absurd hcomplete (by simp [hincomplete]) }
  | stopped hfailed budget =>
    have hcovered := h.recorded { s with
        index := s.index + 1
        locals := e.locals
        records := s.records ++ [e.record]
        correctionBudget := budget
        events := s.events ++ e.calls.map Event.invoked ++ [.executed d.name e.record.status]
        stopped := true }
      e.record hphase hpr rfl rfl rfl rfl (List.append_assoc ..) (hmore _)
    exact { hordered with
      covered := hcovered
      halted := fun _ => rfl
      broken := fun _ => Or.inr ⟨_, List.mem_append_right _ (List.mem_singleton_self _), by
        rw [hfailed]
        decide⟩
      idle := fun hcomplete => absurd hcomplete (by simp [hincomplete]) }
  | rewound target producer _ _ _ _ _ htarget hproducer =>
    exact h.rewound hexecutes hpr rfl rfl rfl (List.append_assoc ..) (hmore _) rfl rfl rfl htarget
      hproducer

lemma Orderly.turned (h : s.Orderly) (hturned : Turned w scene s t) : t.Orderly := by
  cases hturned with
  | ended => exact h
  | refused d message hrunning hphase hexpands => exact h.refused hrunning hphase hexpands message
  | expanded d phases _ hphase hexpands hplan => exact h.expanded hphase hexpands hplan
  | skipped d _ hphase _ _ hcompleted => exact h.skipped hphase hcompleted _
  | executed d e hexecutes he => exact h.executed hexecutes he

lemma Orderly.after {scenes : ℕ → Scene} (h : s.Orderly) {n : ℕ}
    (ht : after w s scenes n = some t) : t.Orderly := by
  induction n generalizing t with
  | zero      =>
    cases ht
    exact h
  | succ n ih =>
    obtain ⟨u, hu, hturn⟩ := Option.bind_eq_some_iff.mp ht
    exact (ih hu).turned (Turned.of_turn hturn)

lemma Orderly.truthful (h : s.Orderly) (hended : s.Ended) : s.Truthful := by
  have hfinished : s.ok = true → s.stopped = false := by
    intro hok
    rw [ok, decide_eq_true_eq] at hok
    rcases hok with ⟨hne, hok⟩ | hcomplete
    · by_contra hstopped
      rw [Bool.not_eq_false] at hstopped
      rcases h.broken hstopped with hnil | ⟨pr, hpr, hstatus⟩
      · exact hne hnil
      · exact hstatus (hok pr hpr)
    · exact (h.idle hcomplete).2.2.1
  constructor
  · intro hok
    have hend : s.phases.length ≤ s.index := by
      rcases hended with hstopped | hend
      · rw [hfinished hok] at hstopped
        cases hstopped
      · exact hend
    have horder := h.order
    have hcovered := h.covered
    rw [List.take_of_length_le hend] at horder hcovered
    refine ⟨horder, fun d hd => ?_⟩
    refine (hcovered d hd).imp_left fun hrecord => ?_
    obtain ⟨pr, hpr, hname⟩ := List.mem_map.mp hrecord
    refine ⟨pr, filter_phase_eq_singleton h.ordered.nodup_records hpr hname, ?_⟩
    rw [ok, decide_eq_true_eq] at hok
    rcases hok with ⟨-, hok⟩ | hcomplete
    · exact hok pr hpr
    · rw [(h.idle hcomplete).2.1] at hpr
      cases hpr
  · rw [state]
    constructor
    · intro hok
      have hawaiting : ¬ s.awaiting.isSome = true := fun hawaiting => by
        have := h.halted hawaiting
        rw [hfinished hok] at this
        cases this
      rw [if_neg hawaiting, if_pos hok]
    · intro hstate
      split_ifs at hstate with _ hok
      exact hok

end LoopState

/-! ### How a run begins -/

lemma expandPlanPhases_eq_none {phases : List PhaseDef} {plan : Except String (List PlanUnit)}
    (h : expandPlanPhases w phases plan = .ok none) : ∀ d ∈ phases, ¬ d.Expands :=
  fun _ hd hexpands => LoopState.expandPlanPhases_ne_none hd hexpands h

lemma exists_expands_of_error {phases : List PhaseDef} {plan : Except String (List PlanUnit)}
    {message : String} (h : expandPlanPhases w phases plan = .error message) :
    ∃ d ∈ phases, d.Expands := by
  rw [expandPlanPhases] at h
  by_contra hnone
  have hfilter : (phases.filter fun d => d.Expands) = [] :=
    List.filter_eq_nil_iff.mpr fun d hd => by simpa using fun hexpands => hnone ⟨d, hd, hexpands⟩
  rw [hfilter] at h
  cases h

variable {phases : List PhaseDef} {opening : Opening}

lemma start_phases (w : Settings) (phases : List PhaseDef) (opening : Opening) :
    (∃ message, expandPlanPhases w phases opening.plan = .error message) ∧
        (start w phases opening).phases = phases ∨
      (∀ d ∈ (start w phases opening).phases, ¬ d.Expands) ∧
        ((phases.map PhaseDef.name).Nodup →
          ((start w phases opening).phases.map PhaseDef.name).Nodup) := by
  have hphases : (start w phases opening).phases = prePhases w phases opening := by
    rw [start]
    cases opening.resume with
    | none   => rfl
    | some r =>
      dsimp only
      split <;> rfl
  rw [hphases, prePhases]
  cases hplan : expandPlanPhases w phases opening.plan with
  | error message => exact Or.inl ⟨⟨message, rfl⟩, rfl⟩
  | ok expanded   =>
    right
    cases expanded with
    | none          => exact ⟨expandPlanPhases_eq_none hplan, id⟩
    | some expanded =>
      refine ⟨LoopState.not_expands_of_expanded hplan, fun hnames => ?_⟩
      obtain ⟨target, units, -, htarget, -⟩ := LoopState.expandPlanPhases_some hplan
      have hmem : target ∈ phases.filter fun d => d.Expands := htarget ▸ List.mem_singleton_self _
      rw [List.mem_filter, decide_eq_true_eq] at hmem
      obtain ⟨index, hindex⟩ := List.getElem?_of_mem hmem.1
      exact (expandPlanPhases_spec hplan hindex hmem.2 hnames).2

lemma start_alreadyComplete (h : (start w phases opening).alreadyComplete = true) :
    (start w phases opening).resume = true ∧ (start w phases opening).stopped = false ∧
      (∀ d ∈ (start w phases opening).phases, d.name ∈ (start w phases opening).completed) ∧
      ((start w phases opening).phases = phases → opening.Covers phases) := by
  rw [start] at h ⊢
  generalize prePhases w phases opening = expanded at h ⊢
  cases hresume : opening.resume with
  | none   =>
    rw [hresume] at h
    cases h
  | some r =>
    simp only [hresume] at h ⊢
    cases hrefused : r.decisions.find? fun decision => !decision.2 with
    | some decision =>
      simp only [hrefused] at h
      cases h
    | none =>
      simp only [hrefused, decide_eq_true_eq] at h ⊢
      refine ⟨trivial, trivial, fun d hd => h.2 d.name (List.mem_map_of_mem hd), ?_⟩
      rintro rfl
      refine ⟨r, hresume, fun decision hdecision => ?_, h.1, fun d hd => ?_⟩
      · simpa using List.find?_eq_none.mp hrefused decision hdecision
      · refine (List.mem_append.mp (h.2 d.name (List.mem_map_of_mem hd))).imp
          (fun hmem => (List.mem_filter.mp hmem).1) fun hmem => ?_
        exact (List.filter_sublist.map _).subset hmem

lemma start_fresh (w : Settings) (phases : List PhaseDef) (opening : Opening) :
    (start w phases opening).index = 0 ∧ (start w phases opening).records = [] ∧
      ((start w phases opening).awaiting.isSome → (start w phases opening).stopped) := by
  rw [start]
  cases opening.resume with
  | none   => exact ⟨rfl, rfl, fun h => by cases h⟩
  | some r =>
    dsimp only
    split
    · exact ⟨rfl, rfl, fun _ => rfl⟩
    · exact ⟨rfl, rfl, fun h => by cases h⟩

lemma start_ordered (w : Settings) (opening : Opening)
    (hnames : (phases.map PhaseDef.name).Nodup) : (start w phases opening).Ordered where
  names := by
    rcases start_phases w phases opening with ⟨-, hphases⟩ | ⟨-, hnodup⟩
    · rwa [hphases]
    · exact hnodup hnames
  order := by simp [(start_fresh w phases opening).2.1]

lemma start_orderly (hnames : (phases.map PhaseDef.name).Nodup)
    (hcondition : ¬ ((∃ message, expandPlanPhases w phases opening.plan = .error message) ∧
      opening.Covers phases)) : (start w phases opening).Orderly := by
  obtain ⟨hindex, hrecords, hhalted⟩ := start_fresh w phases opening
  have hordered := start_ordered w opening hnames
  refine { hordered with
    covered := by simp [hindex]
    halted := hhalted
    broken := fun _ => Or.inl hrecords
    idle := fun hcomplete => ?_ }
  obtain ⟨hresume, hstopped, hcompleted, hcovers⟩ := start_alreadyComplete hcomplete
  refine ⟨hresume, hrecords, hstopped, fun d hd => ⟨?_, hcompleted d hd⟩⟩
  rcases start_phases w phases opening with ⟨herror, hphases⟩ | ⟨hnone, -⟩
  · exact absurd ⟨herror, hcovers hphases⟩ hcondition
  · exact hnone d hd

/-! ### A covered list whose plan is not there -/

namespace LoopState

/-- A run that is said to be complete, over phases of which one declares a plan: it skips what
declares none, and fails what declares one. -/
structure Covered (phases : List PhaseDef) (s : LoopState) : Prop where
  same : s.phases = phases
  resumes : s.resume = true
  completed : ∀ d ∈ phases, d.name ∈ s.completed
  complete : s.alreadyComplete = true
  skips : ∀ name, .skipped name ∈ s.events → ∃ d ∈ phases, ¬ d.Expands ∧ d.name = name
  refused : ∀ d ∈ phases.take s.index, d.Expands →
    ∃ pr ∈ s.records, pr.phase = d.name ∧ pr.status = .failed
  stopped : s.stopped = true → ∃ d ∈ phases, d.Expands ∧
    ∃ pr ∈ s.records, pr.phase = d.name ∧ pr.status = .failed

lemma Covered.not_executes (h : s.Covered phases) : ¬ s.Executes d := by
  rintro ⟨-, hphase, -, hskip⟩
  rw [h.same] at hphase
  exact hskip ⟨h.resumes, h.completed d (List.mem_of_getElem? hphase)⟩

lemma Covered.turned (h : s.Covered phases) {message : String} (hplan : scene.plan = .error message)
    (hturned : Turned w scene s t) : t.Covered phases := by
  cases hturned with
  | ended => exact h
  | refused d message _ hphase hexpands =>
    rw [h.same] at hphase
    have hrecord : ∃ pr ∈ (s.refuseExpansion w d message).records, pr.phase = d.name ∧
        pr.status = .failed := ⟨_, List.mem_append_right _ (List.mem_singleton_self _), rfl, rfl⟩
    exact { h with
      skips := fun name hname => by
        rcases List.mem_append.mp hname with hname | hname
        · exact h.skips name hname
        · cases List.mem_singleton.mp hname
      refused := fun d' hd' hexpands' => by
        have htake : d' ∈ phases.take (s.index + 1) := hd'
        rw [List.take_add_one, hphase] at htake
        rcases List.mem_append.mp htake with hd' | hd'
        · obtain ⟨pr, hpr, hfailed⟩ := h.refused d' hd' hexpands'
          exact ⟨pr, List.mem_append_left _ hpr, hfailed⟩
        · rw [Option.toList_some, List.mem_singleton] at hd'
          rwa [hd']
      stopped := fun _ => ⟨d, List.mem_of_getElem? hphase, hexpands, hrecord⟩ }
  | expanded d expanded _ _ _ hexpanded =>
    obtain ⟨target, units, hunits, -⟩ := expandPlanPhases_some hexpanded
    rw [hplan] at hunits
    cases hunits
  | skipped d _ hphase hexpands =>
    rw [h.same] at hphase
    exact { h with
      skips := fun name hname => by
        rcases List.mem_append.mp hname with hname | hname
        · exact h.skips name hname
        · cases List.mem_singleton.mp hname
          exact ⟨d, List.mem_of_getElem? hphase, hexpands, rfl⟩
      refused := fun d' hd' hexpands' => by
        dsimp only at hd'
        rw [List.take_add_one, hphase] at hd'
        rcases List.mem_append.mp hd' with hd' | hd'
        · exact h.refused d' hd' hexpands'
        · rw [Option.toList_some, List.mem_singleton] at hd'
          exact absurd (hd' ▸ hexpands') hexpands
      stopped := h.stopped }
  | executed d e hexecutes => exact absurd hexecutes h.not_executes

lemma Covered.not_truthful (h : s.Covered phases) (hnames : (phases.map PhaseDef.name).Nodup)
    (hexpands : ∃ d ∈ phases, d.Expands) (hended : s.Ended) : ¬ s.Truthful := by
  obtain ⟨d, hd, hexpands, pr, hpr, hname, hfailed⟩ : ∃ d ∈ phases, d.Expands ∧
      ∃ pr ∈ s.records, pr.phase = d.name ∧ pr.status = .failed := by
    rcases hended with hstopped | hend
    · exact h.stopped hstopped
    · obtain ⟨d, hd, hexpands⟩ := hexpands
      rw [h.same] at hend
      exact ⟨d, hd, hexpands, h.refused d (by rwa [List.take_of_length_le hend]) hexpands⟩
  rintro ⟨htruthful, -⟩
  have hok : s.ok = true := by
    rw [ok, decide_eq_true_eq]
    exact Or.inr h.complete
  rcases (htruthful hok).2 d (h.same ▸ hd) with ⟨pr', hone, hstatus⟩ | ⟨-, before, later, hskip, -⟩
  · have hmem : pr ∈ s.records.filter fun pr => pr.phase = d.name :=
      List.mem_filter.mpr ⟨hpr, by simpa using hname⟩
    rw [hone, List.mem_singleton] at hmem
    rw [hmem, hstatus] at hfailed
    cases hfailed
  · obtain ⟨d', hd', hnot, hsame⟩ := h.skips d.name (by rw [hskip]; simp)
    have heq : d' = d := List.inj_on_of_nodup_map hnames hd' hd hsame
    exact hnot (heq ▸ hexpands)

end LoopState

lemma start_covered {message : String}
    (hplan : expandPlanPhases w phases opening.plan = .error message)
    (hcovers : opening.Covers phases) : (start w phases opening).Covered phases := by
  obtain ⟨r, hresume, happroved, hne, hcovered⟩ := hcovers
  have hrefused : (r.decisions.find? fun decision => !decision.2) = none :=
    List.find?_eq_none.mpr fun decision hdecision => by simp [happroved decision hdecision]
  have hphases : prePhases w phases opening = phases := by
    rw [prePhases, hplan]
  have hcompleted : ∀ d ∈ phases, d.name ∈ r.completed.filter (· ∈ phases.map PhaseDef.name) ++
      (r.decisions.filter Prod.snd).map Prod.fst := by
    intro d hd
    rw [List.mem_append]
    refine (hcovered d hd).imp (fun hmem => ?_) fun hmem => ?_
    · exact List.mem_filter.mpr ⟨hmem, by simpa using ⟨d, hd, rfl⟩⟩
    · obtain ⟨decision, hdecision, hname⟩ := List.mem_map.mp hmem
      exact List.mem_map.mpr
        ⟨decision, List.mem_filter.mpr ⟨hdecision, happroved decision hdecision⟩, hname⟩
  rw [start, hresume]
  simp only [hphases, hrefused]
  exact {
    same := rfl
    resumes := rfl
    completed := hcompleted
    complete := by
      simp only [decide_eq_true_eq]
      refine ⟨hne, fun name hname => ?_⟩
      obtain ⟨d, hd, rfl⟩ := List.mem_map.mp hname
      exact hcompleted d hd
    skips := fun name hname => by cases hname
    refused := by simp
    stopped := fun hstopped => by cases hstopped }

/-- Every result of a run is truthful, exactly if the resume does not cover a list of phases whose
plan cannot be expanded when the run begins. -/
theorem success_means_every_phase_iff (w : Settings) (phases : List PhaseDef) (opening : Opening)
    (hnames : (phases.map PhaseDef.name).Nodup) :
    (∀ scenes result, Returns w (start w phases opening) scenes result → result.Truthful) ↔
      ¬ ((∃ message, expandPlanPhases w phases opening.plan = .error message) ∧
        opening.Covers phases) := by
  constructor
  · rintro h ⟨⟨message, hplan⟩, hcovers⟩
    have hstart := start_covered hplan hcovers
    let scene : Scene := {
      plan := .error message
      planTargets := .ok []
      suite := .ok ⟨none, 0, none⟩
      agent := ⟨none, .ok "", "", fun _ => ⟨none, .stalled ""⟩, none⟩
      gates := ⟨⟨none, 0, none⟩, none, fun _ => .conforming, fun _ => none, "", .ok "", false,
        fun _ => none⟩ }
    have hrun : ∀ n, ∃ s, after w (start w phases opening) (fun _ => scene) n = some s ∧
        s.Covered phases := by
      intro n
      induction n with
      | zero      => exact ⟨_, rfl, hstart⟩
      | succ n ih =>
        obtain ⟨s, hs, hcovered⟩ := ih
        obtain ⟨t, ht⟩ := LoopState.turn_isSome w scene fun d hd =>
          absurd hd hcovered.not_executes
        refine ⟨t, by rw [after, hs, Option.bind_some, ht], ?_⟩
        exact hcovered.turned rfl (LoopState.Turned.of_turn ht)
    obtain ⟨result, n, hn, hended⟩ := returns_of_forall_some fun n =>
      (hrun n).imp fun s hs => hs.1
    obtain ⟨s, hs, hcovered⟩ := hrun n
    have heq : s = result := Option.some.inj (hs.symm.trans hn)
    subst heq
    exact hcovered.not_truthful hnames (exists_expands_of_error hplan) hended
      (h _ s ⟨n, hn, hended⟩)
  · rintro hcondition scenes result ⟨n, hn, hended⟩
    exact ((start_orderly hnames hcondition).after hn).truthful hended

/-- The results of a run that is not a resume are truthful. -/
theorem fresh_run_truthful :
    let phases : List PhaseDef :=
      [{ declaredName := some "plan" },
        { declaredName := some "execute", expandFromPlan := "plan.json" }]
    let opening : Opening :=
      { plan := .error "plan units artifact not found: plan.json", resume := none }
    ∀ scenes result, Returns plainSettings (start plainSettings phases opening) scenes result →
      result.Truthful := by
  intro phases opening
  refine (success_means_every_phase_iff plainSettings phases opening (by decide)).mpr ?_
  rintro ⟨-, r, hr, -⟩
  cases hr

/-- A resume with evidence for every phase is ok although the phase that declares the plan fails. -/
theorem covered_plan_fails_ok :
    let phases : List PhaseDef :=
      [{ declaredName := some "plan" },
        { declaredName := some "execute", expandFromPlan := "plan.json" }]
    let opening : Opening := {
      plan := .error "plan units artifact not found: plan.json"
      resume := some { inherits := true, completed := ["plan", "execute"], decisions := [] } }
    (phases.map PhaseDef.name).Nodup ∧
      ¬ ∀ scenes result, Returns plainSettings (start plainSettings phases opening) scenes result →
        result.Truthful := by
  intro phases opening
  refine ⟨by decide, fun h => ?_⟩
  obtain ⟨htruthful, -⟩ := h (fun _ => agentScene none (.stalled "")) _ ⟨2, rfl, Or.inl rfl⟩
  rcases (htruthful (by decide)).2 { declaredName := some "execute", expandFromPlan := "plan.json" }
    (List.mem_cons_of_mem _ (List.mem_singleton_self _)) with ⟨pr, hone, hstatus⟩ | ⟨-, before, later, hskip, -⟩
  · cases hone
    cases hstatus
  · have hmem : Event.skipped "execute" ∈ ([.skipped "plan", .executed "execute" .failed] :
        List Event) := by
      have : ([.skipped "plan", .executed "execute" .failed] : List Event) =
        before ++ .skipped "execute" :: later := hskip
      rw [this]
      simp
    simp at hmem

end AgenticDynamics.Execution
