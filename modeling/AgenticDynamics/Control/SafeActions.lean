import AgenticDynamics.Library.StableSort
import AgenticDynamics.Control.RunFamily
import AgenticDynamics.Control.PromotionClaim

/-!
# Safe actions

The actions a control packet offers, derived from the runs, their gates and the transition graph;
and what the rest of the control plane makes of them.
-/

namespace AgenticDynamics.Control

open Python Script StableSort

/-! ### The offers -/

inductive SafeAction
  | approve
  | promote
  | cancel
  deriving DecidableEq, Repr

/-- `_ACTION_ORDER`. -/
def SafeAction.order : SafeAction → ℕ
  | approve => 0
  | promote => 1
  | cancel  => 2

structure AwaitingApproval where
  runId : String
  gateId : String
  candidateSha : String
  specName : String
  purpose : String
  deriving DecidableEq

structure SafeActionEntry where
  action : SafeAction
  runId : String
  gateId : String
  candidateSha : String
  deriving DecidableEq

def awaitingApprovalEntries (s : ControlTables) (runs : List RunRecord) : List AwaitingApproval :=
  sortBy (fun e => toLex (e.runId, e.gateId)) ((runs.filter fun run =>
    run.state = .awaitingApproval).flatMap fun run =>
      (s.runGateContext run true).map fun gateId =>
        { runId := run.runId, gateId, candidateSha := run.candidateSha, specName := run.specName
          purpose := purposeCheckpoint })

def deriveSafeActions (awaiting : List AwaitingApproval)
    (runsByState : RunState → List RunRecord) : List SafeActionEntry :=
  let approvals := awaiting.map fun e => ⟨.approve, e.runId, e.gateId, e.candidateSha⟩
  let promotions :=
    if .promoting ∈ allowedTransitions .promotable then
      (runsByState .promotable).map fun run => ⟨.promote, run.runId, "", run.candidateSha⟩
    else []
  let cancellations := (RunState.members.filter fun state =>
    .cancelled ∈ allowedTransitions state).flatMap fun state =>
      (runsByState state).map fun run => ⟨.cancel, run.runId, "", run.candidateSha⟩
  sortBy (fun e : SafeActionEntry => toLex (e.action.order, toLex (e.runId, e.gateId)))
    (approvals ++ promotions ++ cancellations)

def Tables.Named (db : Tables) : Prop := ∀ r ∈ db.runs, r.runId ≠ ""

namespace ControlTables

def activeRuns (s : ControlTables) : List RunRecord :=
  s.db.runs.filter fun run => run.state ∉ terminalRunStates

/-- The `safe_actions` of the packet. -/
def safeActions (s : ControlTables) : List SafeActionEntry :=
  deriveSafeActions (awaitingApprovalEntries s s.activeRuns) fun state =>
    s.activeRuns.filter fun run => run.state = state

/-! ### The states there can be -/

/-- What the methods of the database make of an empty one. -/
inductive Reached (host : Host) : ControlTables → Prop
  | empty : Reached host ⟨Tables.empty, [], [], emptyJournal⟩
  | call {s : ControlTables} (h : Reached host s) (call : OrchestratorCall) :
      Reached host { s with db := call.perform s.db }
  | gateResult {s t : ControlTables} {a : RecordGateResult} {hex clock : String}
      {row : GateResultRecord} (h : Reached host s)
      (hcall : s.recordGateResult host a hex clock = .ok (t, row)) : Reached host t
  | approval {s t : ControlTables} {a : RecordApproval} {hex clock : String} {row : ApprovalRecord}
      (h : Reached host s) (hcall : s.recordApproval a hex clock = .ok (t, row)) : Reached host t
  | intent {s t : ControlTables} {a : RecordCommandIntent} {hex clock : String}
      {command : CommandRecord} (h : Reached host s)
      (hcall : s.recordIntent host a hex clock = .ok (t, command)) : Reached host t
  | complete {s t : ControlTables} {a : CompleteCommand} {clock : String} (h : Reached host s)
      (hcall : s.complete host a clock = .ok (t, ())) : Reached host t

/-- The runs are audited and have names; every gate result and every approval names a candidate
without white space around it. -/
structure Sound (s : ControlTables) : Prop where
  audited : Audited s.db
  named : s.db.Named
  gates : ∀ g ∈ s.gateRows, g.candidateSha ≠ "" ∧ strip g.candidateSha = g.candidateSha
  approvals : ∀ a ∈ s.approvalRows, a.candidateSha ≠ "" ∧ strip a.candidateSha = a.candidateSha

end ControlTables

/-! ### What every reachable state has -/

lemma require_eq_ok {value fieldName text : String} (h : require value fieldName = .ok text) :
    text = strip value ∧ text ≠ "" ∧ strip text = text := by
  rw [require] at h
  split_ifs at h with hblank
  cases h
  exact ⟨rfl, hblank, strip_strip value⟩

lemma named_onLinks : OnLinks Tables.Named := by
  intro s t hlinks hs r hr
  have hmem : r.link ∈ s.runs.map RunRecord.link := hlinks ▸ List.mem_map_of_mem hr
  obtain ⟨r', hr', hsame⟩ := List.mem_map.mp hmem
  have hid : r'.runId = r.runId := congrArg Prod.fst hsame
  rw [← hid]
  exact hs r' hr'

lemma Created.named_runs {a : CreateRun} {s t : Tables} {r : RunRecord} {row : StateTransition}
    (hnamed : s.Named) (h : Created a s t r row) : t.Named := by
  intro r' hr'
  rw [h.runs] at hr'
  rcases List.mem_append.mp hr' with hr' | hr'
  · exact hnamed r' hr'
  · rw [List.mem_singleton.mp hr']
    exact h.named

lemma named_perform {db : Tables} (hnamed : db.Named) (call : OrchestratorCall) :
    (call.perform db).Named :=
  call.perform_keeps
    (fun _ _ hs he => he.onLinks named_onLinks (fun _ _ _ _ _ hs h => h.named_runs hs) hs)
    (fun _ _ hs => named_onLinks.of_runs hs rfl) hnamed

namespace ControlTables

lemma Reached.calls {host : Host} {s : ControlTables} (h : Reached host s)
    (calls : List OrchestratorCall) :
    Reached host { s with db := calls.foldl OrchestratorCall.perform s.db } := by
  induction calls generalizing s with
  | nil => exact h
  | cons call calls ih => exact ih (h.call call)

lemma Sound.of_tables {s t : ControlTables} (hs : s.Sound) (haudited : Audited t.db)
    (hnamed : t.db.Named) (hgates : t.gateRows = s.gateRows)
    (happrovals : t.approvalRows = s.approvalRows) : t.Sound := by
  refine ⟨haudited, hnamed, ?_, ?_⟩
  · rw [hgates]
    exact hs.gates
  · rw [happrovals]
    exact hs.approvals

lemma Reached.sound {host : Host} {s : ControlTables} (h : Reached host s) : s.Sound := by
  induction h with
  | empty =>
    exact ⟨audited_empty, by simp [Tables.Named, Tables.empty], by simp, by simp⟩
  | call h call ih =>
    exact ih.of_tables (audited_perform ih.audited call) (named_perform ih.named call) rfl rfl
  | gateResult h hcall ih =>
    rw [recordGateResult] at hcall
    obtain ⟨sha, hsha, hcall⟩ := bind_eq_ok.mp hcall
    obtain ⟨step, -, hcall⟩ := bind_eq_ok.mp hcall
    obtain ⟨decision, -, hcall⟩ := bind_eq_ok.mp hcall
    dsimp only at hcall
    split_ifs at hcall
    cases hcall
    obtain ⟨-, hne, hstrip⟩ := require_eq_ok hsha
    refine ⟨ih.audited, ih.named, fun g hg => ?_, ih.approvals⟩
    rcases List.mem_append.mp hg with hg | hg
    · exact ih.gates g hg
    · rw [List.mem_singleton.mp hg]
      exact ⟨hne, hstrip⟩
  | approval h hcall ih =>
    rw [recordApproval] at hcall
    obtain ⟨sha, hsha, hcall⟩ := bind_eq_ok.mp hcall
    obtain ⟨who, -, hcall⟩ := bind_eq_ok.mp hcall
    dsimp only at hcall
    split_ifs at hcall
    cases hcall
    obtain ⟨-, hne, hstrip⟩ := require_eq_ok hsha
    refine ⟨ih.audited, ih.named, ih.gates, fun a ha => ?_⟩
    rcases List.mem_append.mp ha with ha | ha
    · exact ih.approvals a ha
    · rw [List.mem_singleton.mp ha]
      exact ⟨hne, hstrip⟩
  | intent h hcall ih =>
    rw [recordIntent] at hcall
    obtain ⟨found, -, hcall⟩ := bind_eq_ok.mp hcall
    cases found with
    | inl existing =>
      cases hcall
      exact ih
    | inr row =>
      obtain ⟨journal, -, hcall⟩ := bind_eq_ok.mp hcall
      cases hcall
      exact ih.of_tables ih.audited ih.named rfl rfl
  | complete h hcall ih =>
    rw [ControlTables.complete] at hcall
    obtain ⟨state, -, hcall⟩ := bind_eq_ok.mp hcall
    cases hcall
    exact ih.of_tables ih.audited ih.named rfl rfl

end ControlTables

end AgenticDynamics.Control
