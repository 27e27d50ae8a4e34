import AgenticDynamics.Control.ControlDb

/-!
# The life of a run

Every method of the control database that touches a run does one of four things to the run
table and the transition ledger, all or nothing: it creates a run with its first row, moves a
run along an allowed edge, edits a live run without moving it, or leaves both tables alone.
Such steps keep every run's ledger a history of the lifecycle graph.
-/

namespace AgenticDynamics.Control

open Python Script

/-! ### Rows -/

lemma find?_of_key {α κ : Type} [DecidableEq κ] {key : α → κ} {rows : List α}
    (hkeys : (rows.map key).Nodup) {r : α} (hr : r ∈ rows) :
    rows.find? (fun a => key a = key r) = some r := by
  cases hget : rows.find? fun a => key a = key r with
  | none => exact absurd (decide_eq_true rfl) (List.find?_eq_none.mp hget r hr)
  | some r' =>
    have hkey : key r' = key r := by simpa using List.find?_some hget
    rw [List.inj_on_of_nodup_map hkeys (List.mem_of_find?_eq_some hget) hr hkey]

lemma map_rewrite {α β : Type} {g : α → β} {f : α → α} (hf : ∀ a, g (f a) = g a) (p : α → Prop)
    [DecidablePred p] (rows : List α) :
    (rows.map fun a => if p a then f a else a).map g = rows.map g := by
  rw [List.map_map]
  refine List.map_congr_left fun a _ => ?_
  simp only [Function.comp_apply]
  split
  · exact hf a
  · rfl

/-! ### Histories -/

/-- The moves recorded for a run, oldest first. -/
def Tables.history (runId : String) (db : Tables) : List (Option RunState × RunState) :=
  (db.transitions runId).map fun row => (row.fromState, row.toState)

lemma Tables.history_congr {s t : Tables} (h : t.runTransitions = s.runTransitions)
    (runId : String) : t.history runId = s.history runId := by
  simp only [history, transitions, h]

lemma Tables.history_snoc_self {s t : Tables} {row : StateTransition}
    (h : t.runTransitions = s.runTransitions ++ [row]) :
    t.history row.runId = s.history row.runId ++ [(row.fromState, row.toState)] := by
  simp [history, transitions, h]

lemma Tables.history_snoc_of_ne {s t : Tables} {row : StateTransition} {runId : String}
    (h : t.runTransitions = s.runTransitions ++ [row]) (hne : row.runId ≠ runId) :
    t.history runId = s.history runId := by
  simp [history, transitions, h, hne]

lemma Tables.getRun_mem {db : Tables} {runId : String} {r : RunRecord}
    (h : db.getRun runId = some r) : r ∈ db.runs ∧ r.runId = runId :=
  ⟨List.mem_of_find?_eq_some h, by simpa using List.find?_some h⟩

lemma Tables.getRun_eq_none {db : Tables} {runId : String} :
    db.getRun runId = none ↔ ∀ r ∈ db.runs, r.runId ≠ runId := by
  simp [getRun]

/-! ### The invariant -/

/-- Run ids are unique, every transition belongs to a stored run, and the rows of each run are a
history that ends in its state. -/
structure Audited (db : Tables) : Prop where
  keys : (db.runs.map RunRecord.runId).Nodup
  owned : ∀ row ∈ db.runTransitions, ∃ r ∈ db.runs, r.runId = row.runId
  ledger : ∀ r ∈ db.runs, Lifecycle (db.history r.runId) r.state

lemma audited_empty : Audited Tables.empty :=
  ⟨List.nodup_nil, by simp [Tables.empty], by simp [Tables.empty]⟩

lemma Audited.getRun {db : Tables} (h : Audited db) {r : RunRecord} (hr : r ∈ db.runs) :
    db.getRun r.runId = some r := find?_of_key h.keys hr

/-- What one committed call does to the run table and the transition ledger. -/
inductive RunStep (s t : Tables) : Prop
  | created (r : RunRecord) (row : StateTransition) (hnew : s.getRun r.runId = none)
      (hinit : r.state ∈ creationStates) (hid : row.runId = r.runId)
      (hedge : (row.fromState, row.toState) = (none, r.state)) (hruns : t.runs = s.runs ++ [r])
      (hrows : t.runTransitions = s.runTransitions ++ [row])
  | moved (current : RunRecord) (target : RunState) (f : RunRecord → RunRecord)
      (row : StateTransition) (hcur : s.getRun current.runId = some current)
      (hallowed : target ∈ allowedTransitions current.state)
      (hf : ∀ r, (f r).runId = r.runId ∧ (f r).state = target) (hid : row.runId = current.runId)
      (hedge : (row.fromState, row.toState) = (some current.state, target))
      (hruns : t.runs = s.runs.map fun r => if r.runId = current.runId then f r else r)
      (hrows : t.runTransitions = s.runTransitions ++ [row])
  | edited (runId : String) (f : RunRecord → RunRecord)
      (hlive : ∀ r ∈ s.runs, r.runId = runId → r.state ∉ terminalRunStates)
      (hf : ∀ r, (f r).runId = r.runId ∧ (f r).state = r.state)
      (hruns : t.runs = s.runs.map fun r => if r.runId = runId then f r else r)
      (hrows : t.runTransitions = s.runTransitions)
  | kept (hruns : t.runs = s.runs) (hrows : t.runTransitions = s.runTransitions)

lemma map_runId_of_update (runs : List RunRecord) (runId : String) {f : RunRecord → RunRecord}
    (hf : ∀ r, (f r).runId = r.runId) :
    (runs.map fun r => if r.runId = runId then f r else r).map RunRecord.runId =
      runs.map RunRecord.runId :=
  map_rewrite hf (fun r => r.runId = runId) runs

lemma owned_of_update {s t : Tables} {runId : String} {f : RunRecord → RunRecord}
    (hf : ∀ r, (f r).runId = r.runId)
    (hruns : t.runs = s.runs.map fun r => if r.runId = runId then f r else r) {id : String}
    (h : ∃ r ∈ s.runs, r.runId = id) : ∃ r ∈ t.runs, r.runId = id := by
  have hids := map_runId_of_update s.runs runId hf
  rw [← hruns] at hids
  simpa only [← List.mem_map, hids] using h

namespace Audited

variable {s t : Tables}

lemma created (h : Audited s) {r : RunRecord} {row : StateTransition}
    (hnew : s.getRun r.runId = none) (hinit : r.state ∈ creationStates)
    (hid : row.runId = r.runId) (hedge : (row.fromState, row.toState) = (none, r.state))
    (hruns : t.runs = s.runs ++ [r]) (hrows : t.runTransitions = s.runTransitions ++ [row]) :
    Audited t := by
  have hfresh := Tables.getRun_eq_none.mp hnew
  refine ⟨?_, ?_, ?_⟩
  · rw [hruns, List.map_append, List.nodup_append]
    refine ⟨h.keys, by simp, ?_⟩
    intro a ha b hb
    obtain ⟨r', hr', rfl⟩ := List.mem_map.mp ha
    simp only [List.map_cons, List.map_nil, List.mem_singleton] at hb
    rw [hb]
    exact hfresh r' hr'
  · intro row' hrow'
    rw [hrows, List.mem_append, List.mem_singleton] at hrow'
    rcases hrow' with hrow' | rfl
    · obtain ⟨r', hr', hid'⟩ := h.owned row' hrow'
      exact ⟨r', by rw [hruns]; exact List.mem_append_left _ hr', hid'⟩
    · exact ⟨r, by simp [hruns], hid.symm⟩
  · intro r' hr'
    rw [hruns, List.mem_append, List.mem_singleton] at hr'
    rcases hr' with hr' | rfl
    · have hne : row.runId ≠ r'.runId := by
        rw [hid]
        exact (hfresh r' hr').symm
      rw [Tables.history_snoc_of_ne hrows hne]
      exact h.ledger r' hr'
    · -- no row of the new id can be older than the run
      have hnone : s.history r'.runId = [] := by
        simp only [Tables.history, Tables.transitions, List.map_eq_nil_iff,
          List.filter_eq_nil_iff, decide_eq_true_eq]
        intro row' hrow' hid'
        obtain ⟨r, hr, hr_id⟩ := h.owned row' hrow'
        exact hfresh r hr (hr_id.trans hid')
      rw [← hid, Tables.history_snoc_self hrows, hid, hnone, hedge]
      exact Ledger.created hinit

lemma moved (h : Audited s) {current : RunRecord} {target : RunState}
    {f : RunRecord → RunRecord} {row : StateTransition}
    (hcur : s.getRun current.runId = some current)
    (hallowed : target ∈ allowedTransitions current.state)
    (hf : ∀ r, (f r).runId = r.runId ∧ (f r).state = target) (hid : row.runId = current.runId)
    (hedge : (row.fromState, row.toState) = (some current.state, target))
    (hruns : t.runs = s.runs.map fun r => if r.runId = current.runId then f r else r)
    (hrows : t.runTransitions = s.runTransitions ++ [row]) : Audited t := by
  refine ⟨?_, ?_, ?_⟩
  · rw [hruns, map_runId_of_update _ _ fun r => (hf r).1]
    exact h.keys
  · intro row' hrow'
    rw [hrows, List.mem_append, List.mem_singleton] at hrow'
    refine owned_of_update (fun r => (hf r).1) hruns ?_
    rcases hrow' with hrow' | rfl
    · exact h.owned row' hrow'
    · exact ⟨current, (Tables.getRun_mem hcur).1, hid.symm⟩
  · intro r' hr'
    rw [hruns, List.mem_map] at hr'
    obtain ⟨r, hr, rfl⟩ := hr'
    split
    case isTrue heq =>
      have hsame : r = current := by
        have hget := h.getRun hr
        rw [heq, hcur] at hget
        exact (Option.some.inj hget).symm
      subst hsame
      rw [(hf r).1, (hf r).2, ← hid, Tables.history_snoc_self hrows, hid, hedge]
      exact (h.ledger r hr).moved hallowed
    case isFalse hne =>
      rw [Tables.history_snoc_of_ne hrows (by rw [hid]; exact Ne.symm hne)]
      exact h.ledger r hr

lemma edited (h : Audited s) {runId : String} {f : RunRecord → RunRecord}
    (hf : ∀ r, (f r).runId = r.runId ∧ (f r).state = r.state)
    (hruns : t.runs = s.runs.map fun r => if r.runId = runId then f r else r)
    (hrows : t.runTransitions = s.runTransitions) : Audited t := by
  refine ⟨?_, ?_, ?_⟩
  · rw [hruns, map_runId_of_update _ _ fun r => (hf r).1]
    exact h.keys
  · intro row hrow
    rw [hrows] at hrow
    exact owned_of_update (fun r => (hf r).1) hruns (h.owned row hrow)
  · intro r' hr'
    rw [hruns, List.mem_map] at hr'
    obtain ⟨r, hr, rfl⟩ := hr'
    rw [Tables.history_congr hrows]
    split
    · rw [(hf r).1, (hf r).2]
      exact h.ledger r hr
    · exact h.ledger r hr

lemma step (h : Audited s) (hstep : RunStep s t) : Audited t := by
  cases hstep with
  | created r row hnew hinit hid hedge hruns hrows =>
    exact h.created hnew hinit hid hedge hruns hrows
  | moved current target f row hcur hallowed hf hid hedge hruns hrows =>
    exact h.moved hcur hallowed hf hid hedge hruns hrows
  | edited runId f _ hf hruns hrows => exact h.edited hf hruns hrows
  | kept hruns hrows =>
    refine ⟨by rw [hruns]; exact h.keys, by rw [hruns, hrows]; exact h.owned, ?_⟩
    intro r hr
    rw [hruns] at hr
    rw [Tables.history_congr hrows]
    exact h.ledger r hr

end Audited

lemma RunStep.terminal_frame {s t : Tables} (hstep : RunStep s t) (h : Audited s)
    {r : RunRecord} (hr : r ∈ s.runs) (hterm : r.state ∈ terminalRunStates) :
    r ∈ t.runs ∧ t.transitions r.runId = s.transitions r.runId := by
  cases hstep with
  | created r' row hnew _ hid _ hruns hrows =>
    have hne : row.runId ≠ r.runId := by
      rw [hid]
      exact (Tables.getRun_eq_none.mp hnew r hr).symm
    exact ⟨by rw [hruns]; exact List.mem_append_left _ hr,
      by simp [Tables.transitions, hrows, hne]⟩
  | moved current target f row hcur hallowed _ hid _ hruns hrows =>
    have hne : r.runId ≠ current.runId := by
      intro heq
      have hget := h.getRun hr
      rw [heq, hcur] at hget
      cases hget
      exact not_terminal_of_allowed _ _ hallowed hterm
    refine ⟨?_, by simp [Tables.transitions, hrows, hid, hne.symm]⟩
    rw [hruns, List.mem_map]
    exact ⟨r, hr, by simp [hne]⟩
  | edited runId f hlive _ hruns hrows =>
    have hne : r.runId ≠ runId := fun heq => hlive r hr heq hterm
    refine ⟨?_, by simp [Tables.transitions, hrows]⟩
    rw [hruns, List.mem_map]
    exact ⟨r, hr, by simp [hne]⟩
  | kept hruns hrows => exact ⟨by rwa [hruns], by simp [Tables.transitions, hrows]⟩

/-! ### The methods -/

/-- The columns that are written with the row of an attempt and never again. -/
def StepAttemptRecord.origin (a : StepAttemptRecord) :
    String × (String × String × ℤ) × String × String :=
  (a.attemptId, (a.runId, a.stepId, a.attemptNo), a.model, a.startedAt)

lemma ensures_orNewId_named {given : Option String} (s : Tables) :
    Ensures (orNewId given "run") (fun id _ => id ≠ "") s := by
  simp only [orNewId]
  split
  · refine ensures_bind (ensures_draw fun hex => ensures_pure ?_)
    intro hempty
    have hlist := congrArg String.toList hempty
    simp at hlist
  · exact ensures_pure (by assumption)

/-- The family that the tables give to a new run. -/
def CreateRun.family (a : CreateRun) (rid : String) (db : Tables) : String :=
  if a.familyId ≠ "" then a.familyId
  else if a.parentRunId ≠ "" then
    match db.getRun a.parentRunId with
    | some parent => orElse (some (orElse (some parent.familyId) parent.runId)) rid
    | none        => rid
  else rid

lemma ensures_resolveFamily {a : CreateRun} {rid : String} (s : Tables) :
    Ensures (resolveFamily a rid) (fun family _ => family = a.family rid s) s := by
  simp only [resolveFamily, CreateRun.family]
  split_ifs with hgiven hparent
  · exact ensures_pure rfl
  · refine ensures_bind (ensures_query ?_)
    cases s.getRun a.parentRunId with
    | none => exact ensures_pure rfl
    | some parent => exact ensures_pure rfl
  · exact ensures_pure rfl

/-- The exact effect of an accepted creation: a new row with its name, its parent and its family,
and the first row of its ledger. -/
structure Created (a : CreateRun) (s t : Tables) (r : RunRecord) (row : StateTransition) :
    Prop where
  named : r.runId ≠ ""
  parent : r.parentRunId = a.parentRunId
  family : r.familyId = a.family r.runId s
  new : s.getRun r.runId = none
  init : r.state ∈ creationStates
  owner : row.runId = r.runId
  edge : (row.fromState, row.toState) = (none, r.state)
  runs : t.runs = s.runs ++ [r]
  rows : t.runTransitions = s.runTransitions ++ [row]

lemma createRun_creates (a : CreateRun) :
    Commits (createRun a) fun s t => ∃ r row, Created a s t r row ∧
      t.stepAttempts = s.stepAttempts := by
  refine commits_bind_left (reads_requireWritable _) fun _ => ?_
  refine commits_bind_left (reads_lift _) fun spec => ?_
  refine commits_bind_left (reads_lift _) fun initial => ?_
  refine commits_bind_lift fun _ hinit => ?_
  have hmem : initial ∈ creationStates := by
    by_contra hn
    simp [hn] at hinit
  refine commits_bind_reads (reads_orNewId _ _) ensures_orNewId_named fun rid => ?_
  refine commits_bind_left (reads_orNow _) fun now => ?_
  refine commits_bind_reads (reads_resolveFamily _ _) ensures_resolveFamily fun family => ?_
  refine commits_bind_right (commits_transaction fun s => ?_) fun _ => reads_reread _
  refine ensures_bind (ensures_execute fun t ht => ?_)
  refine ensures_bind (ensures_insertTransition (ensures_bumpEpoch fun hfamily hnamed => ?_))
  simp only [Tables.insertRun] at ht
  split at ht
  case isTrue => cases ht
  case isFalse hnew =>
    cases ht
    exact ⟨_, _, ⟨hnamed, rfl, hfamily, Option.not_isSome_iff_eq_none.mp hnew, hmem, rfl, rfl, rfl,
      rfl⟩, rfl⟩

/-- The exact effect of an accepted transition: the edge is in the graph, and the run row, its new
ledger row and the epoch move together. -/
def Transitioned (a : TransitionRun) (target : RunState) (now : String) (s t : Tables) : Prop :=
  ∃ current, s.getRun a.runId = some current ∧ target ∈ allowedTransitions current.state ∧
    t = { s with
      runs := s.runs.map fun r => if r.runId = a.runId then a.apply current target now r else r
      runTransitions := s.runTransitions ++
        [⟨a.runId, some current.state, target, now, a.reason, a.actor⟩]
      controlEpoch := s.controlEpoch + 1 }

lemma Transitioned.runStep {a : TransitionRun} {target : RunState} {now : String}
    {s t : Tables} (h : Transitioned a target now s t) : RunStep s t := by
  obtain ⟨current, hcur, hallowed, rfl⟩ := h
  have hid := (Tables.getRun_mem hcur).2
  refine .moved current target (a.apply current target now) _ (by rwa [hid]) hallowed
    (fun r => ⟨rfl, rfl⟩) hid.symm rfl ?_ rfl
  rw [hid]

lemma transitionBlock_ensures (a : TransitionRun) (target : RunState) (now : String)
    (s : Tables) :
    Ensures (transitionBlock a target now) (fun _ t => Transitioned a target now s t) s := by
  refine ensures_bind (ensures_query ?_)
  cases hcur : s.getRun a.runId with
  | none => exact ensures_raise _
  | some current =>
    dsimp only
    split_ifs with hterm hallowed
    · exact ensures_raise _
    · refine ensures_bind (ensures_updateRuns ?_)
      refine ensures_bind (ensures_insertTransition (ensures_bumpEpoch ?_))
      exact ⟨current, hcur, hallowed, rfl⟩
    · exact ensures_raise _

/-- What one committed call does to the tables. -/
inductive Effect (s t : Tables) : Prop
  | created (a : CreateRun) (r : RunRecord) (row : StateTransition) (h : Created a s t r row)
      (hattempts : t.stepAttempts = s.stepAttempts)
  | moved (a : TransitionRun) (target : RunState) (now : String) (h : Transitioned a target now s t)
  | edited (a : UpdateRun) (current : RunRecord)
      (hlive : ¬ s.runs.any (fun r => r.runId = a.runId ∧ r.isTerminal))
      (h : t = { s with
        runs := s.runs.map fun r => if r.runId = a.runId then a.apply current r else r })
  | beat (beats : List RunHeartbeat) (h : t = { s with runHeartbeats := beats })
  | started (row : StepAttemptRecord) (n : ℕ) (hid : ¬ (s.getAttempt row.attemptId).isSome)
      (hnumber : ¬ s.stepAttempts.any fun a =>
        a.runId = row.runId ∧ a.stepId = row.stepId ∧ a.attemptNo = row.attemptNo)
      (hrun : ¬ (s.getRun row.runId).isNone)
      (h : t = { s with stepAttempts := s.stepAttempts ++ [row], controlEpoch := n })
  | finished (attemptId : String) (f : StepAttemptRecord → StepAttemptRecord) (n : ℕ)
      (hf : ∀ a, (f a).origin = a.origin)
      (hlive : ¬ s.stepAttempts.any (fun a => a.attemptId = attemptId ∧ a.isTerminal))
      (h : t = { s with
        stepAttempts := s.stepAttempts.map fun a => if a.attemptId = attemptId then f a else a
        controlEpoch := n })

lemma Effect.runStep {s t : Tables} (h : Effect s t) : RunStep s t := by
  cases h with
  | created a r row h => exact .created r row h.new h.init h.owner h.edge h.runs h.rows
  | moved a target now h => exact h.runStep
  | edited a current hlive h =>
    subst h
    refine .edited a.runId (a.apply current) ?_ (fun r => ⟨rfl, rfl⟩) rfl rfl
    intro r hr hid hterm
    exact hlive (List.any_eq_true.mpr ⟨r, hr, by simp [hid, RunRecord.isTerminal, hterm]⟩)
  | beat _ h | started _ _ _ _ _ h | finished _ _ _ _ _ h =>
    subst h
    exact .kept rfl rfl

lemma transitionRun_commits (a : TransitionRun) : Commits (transitionRun a) Effect := by
  refine commits_bind_left (reads_requireWritable _) fun _ => ?_
  refine commits_bind_left (reads_lift _) fun target => ?_
  refine commits_bind_left (reads_orNow _) fun now => ?_
  refine commits_bind_right (commits_transaction fun s => ?_) fun _ => reads_reread _
  exact (transitionBlock_ensures a target now s).mono fun _ _ h => .moved a target now h

lemma updateRun_commits (a : UpdateRun) : Commits (updateRun a) Effect := by
  refine commits_bind_left (reads_requireWritable _) fun _ => ?_
  refine commits_bind_right (commits_transaction fun s => ?_) fun _ => reads_reread _
  refine ensures_bind (ensures_query ?_)
  cases hcur : s.getRun a.runId with
  | none => exact ensures_raise _
  | some current =>
    dsimp only
    split_ifs
    · exact ensures_raise _
    · refine ensures_execute fun t ht => ?_
      simp only [Tables.updateRuns] at ht
      split_ifs at ht with hlive
      cases ht
      exact .edited a current hlive rfl

lemma recordRunHeartbeat_commits (a : RecordRunHeartbeat) :
    Commits (recordRunHeartbeat a) Effect := by
  refine commits_bind_left (reads_requireWritable _) fun _ => ?_
  refine commits_bind_left (reads_query _) fun run => ?_
  cases run with
  | none => exact (reads_raise _).commits
  | some run =>
    refine commits_bind_left (reads_orNow _) fun stamp => ?_
    refine commits_bind_right (commits_transaction fun s => ?_) fun _ => reads_reread _
    refine ensures_execute fun t ht => ?_
    simp only [Tables.upsertHeartbeat] at ht
    split_ifs at ht <;> cases ht <;> exact .beat _ rfl

lemma startAttempt_commits (a : StartAttempt) : Commits (startAttempt a) Effect := by
  refine commits_bind_left (reads_requireWritable _) fun _ => ?_
  refine commits_bind_left (reads_lift _) fun step => ?_
  refine commits_bind_left (reads_lift _) fun attemptState => ?_
  refine commits_bind_right (commits_transaction fun s => ?_) fun _ => reads_reread _
  refine ensures_bind (ensures_query ?_)
  cases s.getRun a.runId with
  | none => exact ensures_raise _
  | some run =>
    have hrest : ∀ number, Ensures (do
        let aid ← orNewId a.attemptId "att"
        let startedAt ← orNow a.startedAt
        execute (Tables.insertAttempt
          { attemptId := aid, runId := a.runId, stepId := step, attemptNo := number
            model := a.model, state := attemptState, startedAt := startedAt, endedAt := ""
            tokens := 0, costUsd := .finite 0, exitCode := none, error := "" })
        let _ ← bumpEpoch
        pure aid) (fun _ t => Effect s t) s := by
      intro number
      refine ensures_bind (ensures_orNewId fun aid => ?_)
      refine ensures_bind (ensures_orNow fun startedAt _ => ?_)
      refine ensures_bind (ensures_execute fun t ht => ?_)
      refine ensures_bind (ensures_bumpEpoch (ensures_pure ?_))
      simp only [Tables.insertAttempt] at ht
      split_ifs at ht with hid hnumber hrun
      cases ht
      exact .started _ _ hid hnumber hrun rfl
    cases hno : a.attemptNo with
    | none => exact ensures_bind (ensures_query (hrest _))
    | some n => exact ensures_bind (ensures_pure (hrest n))

lemma finishAttempt_commits (a : FinishAttempt) : Commits (finishAttempt a) Effect := by
  refine commits_bind_left (reads_requireWritable _) fun _ => ?_
  refine commits_bind_left (reads_lift _) fun final => ?_
  refine commits_bind_right (commits_transaction fun s => ?_) fun _ => reads_reread _
  refine ensures_bind (ensures_query ?_)
  cases s.getAttempt a.attemptId with
  | none => exact ensures_raise _
  | some current =>
    dsimp only
    split_ifs
    · exact ensures_raise _
    · refine ensures_bind (ensures_orNow fun endedAt _ => ?_)
      refine ensures_bind (ensures_execute fun t ht => ensures_bumpEpoch ?_)
      simp only [Tables.updateAttempts] at ht
      split_ifs at ht with hlive
      cases ht
      exact .finished a.attemptId _ _ (by exact fun _ => rfl) hlive rfl

/-! ### Runs of calls -/

/-- One call of the public surface, with its arguments. -/
inductive Call
  | createRun (a : CreateRun)
  | transitionRun (a : TransitionRun)
  | updateRun (a : UpdateRun)
  | startAttempt (a : StartAttempt)
  | finishAttempt (a : FinishAttempt)
  | recordRunHeartbeat (a : RecordRunHeartbeat)

/-- The connection after the call, whether it returned or raised. -/
def Call.perform (o : Oracle DbError) (s : Session Tables) : Call → Session Tables
  | createRun a          => (Control.createRun a o s).2
  | transitionRun a      => (Control.transitionRun a o s).2
  | updateRun a          => (Control.updateRun a o s).2
  | startAttempt a       => (Control.startAttempt a o s).2
  | finishAttempt a      => (Control.finishAttempt a o s).2
  | recordRunHeartbeat a => (Control.recordRunHeartbeat a o s).2

/-- A sequence of calls, each in its own environment. -/
def performAll (calls : List (Oracle DbError × Call)) (s : Session Tables) : Session Tables :=
  calls.foldl (fun s call => call.2.perform call.1 s) s

lemma Call.perform_effect (call : Call) (o : Oracle DbError) (s : Session Tables)
    (h0 : s.depth = 0) :
    (call.perform o s).depth = 0 ∧
      ((call.perform o s).store = s.store ∨ Effect s.store (call.perform o s).store) := by
  cases call with
  | createRun a =>
    refine (createRun_creates a).mono ?_ o s h0
    rintro s t ⟨r, row, h, hattempts⟩
    exact .created a r row h hattempts
  | transitionRun a => exact transitionRun_commits a o s h0
  | updateRun a => exact updateRun_commits a o s h0
  | startAttempt a => exact startAttempt_commits a o s h0
  | finishAttempt a => exact finishAttempt_commits a o s h0
  | recordRunHeartbeat a => exact recordRunHeartbeat_commits a o s h0

lemma performAll_effects {P : Tables → Prop} (hstep : ∀ s t, P s → Effect s t → P t)
    (calls : List (Oracle DbError × Call)) {s : Session Tables} (h0 : s.depth = 0)
    (h : P s.store) : (performAll calls s).depth = 0 ∧ P (performAll calls s).store := by
  induction calls generalizing s with
  | nil => exact ⟨h0, h⟩
  | cons call calls ih =>
    obtain ⟨hdepth, hmove⟩ := call.2.perform_effect call.1 s h0
    refine ih hdepth ?_
    rcases hmove with hsame | hmove
    · rwa [hsame]
    · exact hstep _ _ h hmove

lemma performAll_induction {P : Tables → Prop} (hstep : ∀ s t, P s → RunStep s t → P t)
    (calls : List (Oracle DbError × Call)) {s : Session Tables} (h0 : s.depth = 0)
    (h : P s.store) : (performAll calls s).depth = 0 ∧ P (performAll calls s).store :=
  performAll_effects (fun s t hs he => hstep s t hs he.runStep) calls h0 h

structure RunHistory (db : Tables) (r : RunRecord) : Prop where
  newest : (db.transitions r.runId).getLast?.map StateTransition.toState = some r.state
  first : ∃ row, (db.transitions r.runId).head? = some row ∧ row.fromState = none ∧
    row.toState ∈ creationStates
  chain : (db.transitions r.runId).IsChain fun a b => b.fromState = some a.toState
  edges : ∀ row ∈ db.transitions r.runId, ∀ f, row.fromState = some f →
    row.toState ∈ allowedTransitions f
  stuck : (db.transitions r.runId).Pairwise fun a _ => a.toState ∉ terminalRunStates
  published : r.state = .published →
    [.promotable, .promoting, .merged, .projecting, .published] <:+
      (db.transitions r.runId).map StateTransition.toState
  merged : (db.transitions r.runId).Pairwise fun a b =>
    a.toState = .merged → b.toState ≠ .cancelled

lemma Audited.runHistory {db : Tables} (h : Audited db) {r : RunRecord} (hr : r ∈ db.runs) :
    RunHistory db r := by
  have hl := h.ledger r hr
  refine ⟨?_, ?_, ?_, ?_, ?_, ?_, ?_⟩
  · have hlast := hl.getLast
    rwa [Tables.history, List.getLast?_map, Option.map_map] at hlast
  · obtain ⟨s₀, hhead, hs₀⟩ := hl.head
    rw [Tables.history, List.head?_map, Option.map_eq_some_iff] at hhead
    obtain ⟨row, hrow, hedge⟩ := hhead
    simp only [Prod.mk.injEq] at hedge
    exact ⟨row, hrow, hedge.1, by rwa [hedge.2]⟩
  · exact (List.isChain_map _).mp hl.isChain
  · intro row hrow f hf
    exact hl.edges _ (List.mem_map_of_mem hrow) f hf
  · exact List.pairwise_map.mp (hl.pairwise_of_stuck not_terminal_of_allowed)
  · intro hpub
    rw [hpub] at hl
    simpa [Tables.history, Function.comp_def] using hl.published_path
  · exact List.pairwise_map.mp hl.not_cancelled_after_merged

/-- From an empty database, after any calls, every stored run has the history its state says, and
a terminal run and its rows are as they were whatever is called afterwards. -/
theorem run_lifecycle (calls : List (Oracle DbError × Call)) (readOnly : Bool) (ticks : ℕ) :
    let c := performAll calls { store := Tables.empty, readOnly := readOnly, ticks := ticks }
    ∀ r ∈ c.store.runs, RunHistory c.store r ∧
      (r.state ∈ terminalRunStates → ∀ later,
        (performAll later c).store.getRun r.runId = some r ∧
        (performAll later c).store.transitions r.runId = c.store.transitions r.runId) := by
  intro c r hr
  obtain ⟨hdepth, haud⟩ := performAll_induction (s := { store := Tables.empty, readOnly, ticks })
    (fun _ _ h hstep => Audited.step h hstep) calls rfl audited_empty
  refine ⟨haud.runHistory hr, fun hterm later => ?_⟩
  obtain ⟨-, haud', hmem, hrows⟩ := performAll_induction (s := c)
    (P := fun db => Audited db ∧ r ∈ db.runs ∧
      db.transitions r.runId = c.store.transitions r.runId)
    (fun s t h hstep => by
      obtain ⟨hs, hmem, hrows⟩ := h
      obtain ⟨hmem', hrows'⟩ := hstep.terminal_frame hs hmem hterm
      exact ⟨hs.step hstep, hmem', hrows'.trans hrows⟩)
    later hdepth ⟨haud, hr, rfl⟩
  exact ⟨haud'.getRun hmem, hrows⟩

/-- The calls of a run that is created, promoted and published. -/
def publishingCalls : List (Oracle DbError × Call) :=
  (.quiet, .createRun { specName := " nightly ", runId := some "run-a" }) ::
    [.running, .verifying, .promotable, .promoting, .merged, .projecting, .published].map
      fun s => (.quiet, .transitionRun { runId := "run-a", newState := .member s })

theorem run_lifecycle_publishing :
    let c := performAll publishingCalls { store := Tables.empty }
    ∃ r, RunHistory c.store r ∧ r.state = .published := by
  have hmem : (performAll publishingCalls { store := Tables.empty }).store.runs[0] ∈
      (performAll publishingCalls { store := Tables.empty }).store.runs := List.getElem_mem _
  exact ⟨_, (run_lifecycle publishingCalls false 0 _ hmem).1, by decide⟩

end AgenticDynamics.Control
