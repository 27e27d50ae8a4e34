import AgenticDynamics.Control.ZombieSweep
import AgenticDynamics.Control.ApprovalActs

/-!
# The promotion claim

A promoter takes a run for itself in one transaction: it reads the row, checks that it may act, and
moves the row to promoting. A row that is promoting already may be entered again after a promotion
of its candidate was recorded as failed.
-/

namespace AgenticDynamics.Control

open Python Script

/-- What ends a promotion: its own exception, or another one. -/
inductive PromoteError
  | refused (message : String)
  | raised (message : String)

structure RunClaim where
  runId : String
  candidateSha : String
  retried : Bool := false
  deriving DecidableEq

def rowCloseActor : String := "promote"

def claimReason (candidateSha base : String) : String :=
  "claiming promotion of " ++ firstChars 12 candidateSha ++ " to " ++ base

namespace CommandTable

/-- `commands(run_id=…)`, up to their order. -/
def commands (runId : String) (t : CommandTable) : List CommandRecord :=
  t.rows.filter fun r => runId = "" ∨ r.runId = runId

/-- A promotion of the row's candidate is recorded as failed. -/
def FailedPrior (runId rowSha : String) (t : CommandTable) : Prop :=
  ∃ r ∈ t.commands runId, r.verb = "promote" ∧ r.state = .failed ∧
    (rowSha = "" ∨ startsWith r.candidateSha rowSha)

instance (runId rowSha : String) (t : CommandTable) : Decidable (t.FailedPrior runId rowSha) :=
  inferInstanceAs (Decidable (∃ r ∈ t.commands runId, r.verb = "promote" ∧ r.state = .failed ∧
    (rowSha = "" ∨ startsWith r.candidateSha rowSha)))

end CommandTable

def claimTransition (runId candidateSha base : String) : TransitionRun :=
  { runId := runId, newState := .member .promoting, reason := claimReason candidateSha base
    actor := rowCloseActor }

/-- `_default_claim_run`, with what keeps the database from opening, if anything does, and what the
statements of the transition meet. -/
def claimRun (host : Host) (opening : Option DbError) (o : Oracle DbError)
    (runId candidateSha base : String) (s : ControlTables) :
    Except PromoteError (ControlTables × RunClaim) :=
  let unclaimable (e : DbError) : PromoteError := .refused ("could not claim control row " ++
    runId ++ " for promotion (" ++ e.message host.quote ++ "); nothing was pushed")
  match opening with
  | some e => .error (unclaimable e)
  | none   =>
    match s.db.getRun runId with
    | none     => .error (.refused ("control row " ++ runId ++ " is unknown to the control db — " ++
        "the managed promotion path acts only on a run the control plane knows; nothing was pushed"))
    | some run =>
      let rowSha := strip run.candidateSha
      if rowSha ≠ "" ∧ ¬ startsWith candidateSha rowSha then
        .error (.refused ("control row " ++ runId ++ " is bound to candidate " ++
          firstChars 12 rowSha ++ ", not the promoted " ++ firstChars 12 candidateSha ++
          " — refusing to claim a different tree; nothing was pushed"))
      else if run.state = .promoting then
        if s.journal.FailedPrior runId rowSha then
          .ok (s, { runId := runId, candidateSha := candidateSha, retried := true })
        else
          .error (.refused ("control row " ++ runId ++ " is already promoting — another promotion " ++
            "attempt holds the claim and the journal records no failure of this act; only a retry " ++
            "after a recorded failure may re-enter; nothing was pushed"))
      else if run.state ≠ .promotable then
        .error (.refused ("control row " ++ runId ++ " is " ++ run.state.value ++
          ", not promotable — the run is not eligible to act (cancelled, in flight, or already " ++
          "moved); nothing was pushed"))
      else
        match transitionRun (claimTransition runId candidateSha base) o { store := s.db } with
        | (.error e, _)    => .error (unclaimable e)
        | (.ok _, session) => .ok ({ s with db := session.store },
            { runId := runId, candidateSha := candidateSha })

/-! ### When a claim is granted -/

variable {host : Host} {o : Oracle DbError} {s : ControlTables} {runId candidateSha base : String}
  {run : RunRecord}

lemma claimRun_promotable (hquiet : ∀ n, o.fault n = none) (h : Audited s.db)
    (hrun : s.db.getRun runId = some run) (hstate : run.state = .promotable) :
    (∃ t claim, claimRun host none o runId candidateSha base s = .ok (t, claim)) ↔
      startsWith candidateSha (strip run.candidateSha) = true := by
  have hempty : strip run.candidateSha = "" →
      startsWith candidateSha (strip run.candidateSha) = true := by
    intro hblank
    simp [hblank, startsWith]
  rw [claimRun]
  simp only [hrun]
  by_cases hbound : startsWith candidateSha (strip run.candidateSha) = true
  · have hends := transitionRun_ends (a := claimTransition runId candidateSha base) (o := o)
      (s := { store := s.db }) hquiet
      (show coerceRunState (claimTransition runId candidateSha base).newState = .ok .promoting from rfl)
      rfl h
    rw [if_neg (by simp [hbound]), if_neg (by rw [hstate]; decide), if_neg (by simp [hstate])]
    rcases hmove : transitionRun (claimTransition runId candidateSha base) o { store := s.db }
      with ⟨e | r, t⟩
    · -- the edge is in the graph, so the transition is not refused
      obtain ⟨-, -, hro | hrefused⟩ := hends.of_error hmove
      · cases hro
      · exact absurd (by rw [hstate]; decide) (hrefused run hrun)
    · exact iff_of_true ⟨_, _, rfl⟩ hbound
  · rw [if_pos ⟨fun hblank => hbound (hempty hblank), hbound⟩]
    simp [hbound]

end AgenticDynamics.Control
