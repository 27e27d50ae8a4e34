import AgenticDynamics.Execution.PhaseContainment
import AgenticDynamics.Control.PromotionGate

/-!
# Promoting a run that awaits its approval

A run is left awaiting at a checkpoint, whose record then has a status of its own, or before its
first phase, with no record at all. The promotion refuses both by their phases, whatever the
approval says.
-/

namespace AgenticDynamics.Control

open Python Execution

/-! ### The ledger of a run -/

def statusValue : PhaseStatus → String
  | .ok       => "ok"
  | .failed   => "failed"
  | .awaiting => "awaiting"

/-- `PhaseResult.to_dict`, as far as the promotion reads it. -/
def phaseRow (pr : PhaseResult) : Dict Json :=
  [("phase", .str pr.phase), ("kind", .str pr.kind), ("status", .str (statusValue pr.status)),
    ("test_executed_success", (pr.testExecutedSuccess.map Json.bool).getD .null),
    ("commit_hash", .str pr.commitHash)]

/-- `WorkflowRunResult.to_dict`, as far as the promotion reads it. -/
def runLedger (result : LoopState) (gitSha runId : String) (cost : PyFloat) : Dict Json :=
  [("git_sha", .str gitSha), ("awaiting", .bool result.awaiting.isSome),
    ("awaiting_phase", .str (result.awaiting.getD "")), ("total_cost_usd", .float cost),
    ("phases", .arr (result.records.map fun pr => .obj (phaseRow pr))), ("run_id", .str runId)]

/-- The promotion comes to the approval: its checks of the head and of the phases pass. -/
def ComesToApproval (host : Host) (w : Worktree) (ledger : Dict Json) : Prop :=
  checkHead host w ledger = .ok () ∧ checkPhases host ledger = .ok ()

/-! ### Runs that await -/

/-- A run that awaits has stopped, and has no record or one that awaits. -/
def Halted (s : LoopState) : Prop :=
  s.awaiting.isSome →
    s.stopped ∧ (s.records = [] ∨ ∃ pr ∈ s.records, pr.status = .awaiting)

variable {w : Settings} {scene : Scene} {s t : LoopState} {d : PhaseDef}

lemma Halted.running (h : Halted s) (hrunning : s.stopped = false) : s.awaiting = none := by
  by_contra hne
  obtain ⟨hstopped, -⟩ := h (Option.isSome_iff_ne_none.mpr hne)
  rw [hrunning] at hstopped
  cases hstopped

lemma halted_of_none (h : s.awaiting = none) : Halted s := by
  intro hsome
  rw [h] at hsome
  cases hsome

lemma retain_awaiting (s : LoopState) (name reason : String) :
    (s.retainAndRemovePhaseRecord name reason).awaiting = s.awaiting := by
  rw [LoopState.retainAndRemovePhaseRecord]
  split <;> rfl

lemma rewind_awaiting (s : LoopState) (d : PhaseDef) (pr : PhaseResult) (target : ℕ)
    (producer : PhaseDef) : (s.rewind d pr target producer).awaiting = s.awaiting := by
  simp only [LoopState.rewind]
  split
  · rw [retain_awaiting, retain_awaiting]
  · rw [retain_awaiting]

lemma Halted.turned (h : Halted s) (hturned : LoopState.Turned w scene s t) : Halted t := by
  cases hturned with
  | ended => exact h
  | refused d message hrunning => exact halted_of_none (h.running hrunning)
  | expanded d phases hrunning => exact halted_of_none (h.running hrunning)
  | skipped d hrunning => exact halted_of_none (h.running hrunning)
  | executed d e hexecutes =>
    have hnone := h.running hexecutes.1
    generalize hc : LoopState.conclude w _ s.index d e.record = c
    have hconcluded : LoopState.Concluded w _ s.index d e.record c :=
      hc ▸ LoopState.concluded _ s.index d e.record
    clear hc
    cases hconcluded with
    | checkpoint =>
      exact fun _ => ⟨rfl, .inr ⟨_, List.mem_append_right _ (List.mem_singleton_self _), rfl⟩⟩
    | next => exact halted_of_none hnone
    | stopped => exact halted_of_none hnone
    | rewound => exact halted_of_none (by rw [rewind_awaiting]; exact hnone)

lemma halted_start (w : Settings) (phases : List PhaseDef) (opening : Opening) :
    Halted (start w phases opening) := by
  rw [start]
  cases opening.resume with
  | none   => exact halted_of_none rfl
  | some r =>
    dsimp only
    split
    · exact fun _ => ⟨rfl, .inl rfl⟩
    · exact halted_of_none rfl

/-- Every run that returns awaiting does so at a checkpoint or before its first phase. -/
theorem halted_of_returns {phases : List PhaseDef} {opening : Opening} {scenes : ℕ → Scene}
    {result : LoopState} (h : Returns w (start w phases opening) scenes result) :
    Halted result := by
  obtain ⟨n, hn, -⟩ := h
  induction n generalizing result with
  | zero =>
    obtain rfl := Option.some.inj hn
    exact halted_start w phases opening
  | succ n ih =>
    obtain ⟨s, hs, hturn⟩ := Option.bind_eq_some_iff.mp hn
    exact (ih hs).turned (LoopState.Turned.of_turn hturn)

/-! ### Refusals -/

section Refusals

variable {host : Host}

lemma checkPhase_refuses (phase : Dict Json) :
    checkPhase host phase = .ok () ∨ ∃ why, checkPhase host phase = .error (.refused why) := by
  simp only [checkPhase]
  split_ifs
  · exact .inr ⟨_, rfl⟩
  · exact .inr ⟨_, rfl⟩
  · exact .inr ⟨_, rfl⟩
  · exact .inl rfl

lemma forM_refuses {phases : List (Dict Json)} {phase : Dict Json} (hmem : phase ∈ phases)
    (hphase : checkPhase host phase ≠ .ok ()) :
    ∃ why, phases.forM (checkPhase host) = .error (.refused why) := by
  induction phases with
  | nil => cases hmem
  | cons first phases ih =>
    have hcons : (first :: phases).forM (checkPhase host) =
        (do checkPhase host first; phases.forM (checkPhase host)) := rfl
    rw [hcons]
    rcases checkPhase_refuses first with hfirst | ⟨why, hfirst⟩
    · rw [hfirst]
      rcases List.mem_cons.mp hmem with rfl | hmem
      · exact absurd hfirst hphase
      · exact ih hmem
    · exact ⟨why, by rw [hfirst]; rfl⟩

lemma checkPhase_awaiting {pr : PhaseResult} (h : pr.status = .awaiting) :
    checkPhase host (phaseRow pr) ≠ .ok () := by
  have hstatus : textOf host.toRuntime "status" (phaseRow pr) = "awaiting" := by
    rw [phaseRow, h]
    rfl
  rw [checkPhase, hstatus]
  simp

lemma ledgerPhases_runLedger (result : LoopState) (gitSha runId : String) (cost : PyFloat) :
    ledgerPhases (runLedger result gitSha runId cost) = .ok (result.records.map phaseRow) := by
  have hphases : (runLedger result gitSha runId cost).get? "phases" =
      some (.arr ((result.records.map phaseRow).map .obj)) := by
    rw [List.map_map]
    rfl
  rw [ledgerPhases, hphases]
  exact mapM_asDict _

lemma checkPhases_halted {result : LoopState} (h : Halted result)
    (hawaiting : result.awaiting.isSome) (gitSha runId : String) (cost : PyFloat) :
    ∃ why, checkPhases host (runLedger result gitSha runId cost) = .error (.refused why) := by
  rw [checkPhases, ledgerPhases_runLedger]
  obtain ⟨-, hnil | ⟨pr, hpr, hstatus⟩⟩ := h hawaiting
  · exact ⟨_, by rw [hnil]; rfl⟩
  · have hmem := List.mem_map_of_mem (f := phaseRow) hpr
    have hrefused := forM_refuses hmem (@checkPhase_awaiting host pr hstatus)
    cases hrows : result.records.map phaseRow with
    | nil =>
      rw [hrows] at hmem
      cases hmem
    | cons row rows => rwa [hrows] at hrefused

lemma checkHead_refuses (tree : Worktree) (ledger : Dict Json) :
    checkHead host tree ledger = .ok () ∨
      ∃ why, checkHead host tree ledger = .error (.refused why) := by
  rw [checkHead]
  split_ifs <;> simp

/-- The promotion of a run that awaits never comes to the approval: it is refused, whatever the
worktree, the database and the approval are. -/
theorem awaiting_run_refused {phases : List PhaseDef} {opening : Opening} {scenes : ℕ → Scene}
    {result : LoopState} (hrun : Returns w (start w phases opening) scenes result)
    (hawaiting : result.awaiting.isSome) (host : Host) (tree : Worktree) (reads : ControlReads)
    (a : GateArgs) (ledgerBytes gitSha runId : String) (cost : PyFloat) :
    ¬ ComesToApproval host tree (runLedger result gitSha runId cost) ∧
      ∃ why, verifyPromotion host tree reads a ledgerBytes
        (.obj (runLedger result gitSha runId cost)) = .error (.refused why) := by
  obtain ⟨why, hphases⟩ := @checkPhases_halted host result (halted_of_returns hrun) hawaiting
    gitSha runId cost
  refine ⟨fun hcomes => ?_, ?_⟩
  · rw [ComesToApproval, hphases] at hcomes
    cases hcomes.2
  · simp only [verifyPromotion, asDict, bind, Except.bind]
    rcases @checkHead_refuses host tree (runLedger result gitSha runId cost) with
      hhead | ⟨whyHead, hhead⟩
    · exact ⟨why, by simp only [hhead, hphases]⟩
    · exact ⟨whyHead, by simp only [hhead]⟩

end Refusals

/-! ### A reviewed candidate -/

def reviewPhases : List PhaseDef := [{ declaredName := some "review", checkpoint := true }]

/-- An agent that answers without an error. -/
def reviewScene : Scene := agentScene none (.answered ⟨true, "", 1, ⟨1, 0, 0, 0, 0, 1⟩⟩)

def reviewed : LoopState := ((after plainSettings (start plainSettings reviewPhases
  { plan := .ok [], resume := none }) (fun _ => reviewScene) 1).getD { phases := [] })

lemma returns_reviewed : Returns plainSettings (start plainSettings reviewPhases
    { plan := .ok [], resume := none }) (fun _ => reviewScene) reviewed :=
  ⟨1, rfl, .inl rfl⟩

def reviewApproval : String :=
  "candidate: 0123abc\nspec: nightly\nphase: review\ntree: 7ree1\nrun: run-1\n" ++
    "operator: dana\ndate: 2026-09-20"

def reviewHost : Host :=
  { journalHost with
    fromisoformat := fun text =>
      if text = "2026-09-20" then some ⟨1789862400000000, false⟩ else none }

/-- The candidate has not moved since the run. -/
def reviewTree : Worktree :=
  { nightlyWorktree with
    head := "0123abc"
    file := fun path => if path = "review.md" then some reviewApproval else none }

def reviewArgs : GateArgs := { nightlyArgs with approval := some "review.md" }

def reviewLedger : Dict Json := runLedger reviewed "0123abc" "run-1" (.finite 1)

/-- The promotion of this candidate is refused. -/
theorem review_refused :
    ∃ why, verifyPromotion reviewHost reviewTree { store := promotableRun } reviewArgs ""
      (.obj reviewLedger) = .error (.refused why) :=
  (awaiting_run_refused returns_reviewed rfl reviewHost reviewTree { store := promotableRun }
    reviewArgs "" "0123abc" "run-1" (.finite 1)).2

/-- The approval of the checkpoint is valid, and the promotion does not come to it. -/
theorem reviewed_candidate_not_promoted :
    Returns plainSettings (start plainSettings reviewPhases
      { plan := .ok [], resume := none }) (fun _ => reviewScene) reviewed ∧
    reviewed.awaiting = some "review" ∧
    checkApproval reviewHost reviewTree { store := promotableRun } reviewArgs reviewLedger =
      .ok () ∧
    ¬ ComesToApproval reviewHost reviewTree reviewLedger := by
  refine ⟨returns_reviewed, rfl, ?_, ?_⟩
  · have hawaits : awaitsApproval reviewLedger = true := rfl
    have hload : loadApproval reviewHost reviewTree reviewArgs reviewLedger = .ok reviewApproval :=
      rfl
    have hvalid : validateDecision reviewHost (parseApprovalDecision reviewHost reviewApproval)
        (approvalExpectations reviewHost reviewTree { store := promotableRun } reviewArgs
          reviewLedger) = [] := by
      decide +kernel
    rw [checkApproval, if_pos hawaits, hload]
    exact if_pos hvalid
  · rintro ⟨-, hphases⟩
    obtain ⟨why, hrefused⟩ := @checkPhases_halted reviewHost reviewed
      (halted_of_returns returns_reviewed) rfl "0123abc" "run-1" (.finite 1)
    rw [reviewLedger, hrefused] at hphases
    cases hphases

end AgenticDynamics.Control
