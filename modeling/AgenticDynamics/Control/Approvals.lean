import AgenticDynamics.Control.CommandJournal

/-!
# Gate results and approvals

The two append-only tables in which a stopped run's gates and the decisions about them are kept,
and the gate context that is derived from them: the gate ids an approval of a run may name.
-/

namespace AgenticDynamics.Control

open Python

/-! ### Rows -/

inductive GateVerdict
  | pass
  | fail
  | error
  | waived
  deriving DecidableEq, Repr

namespace GateVerdict

def value : GateVerdict → String
  | pass   => "pass"
  | fail   => "fail"
  | error  => "error"
  | waived => "waived"

/-- Every member, in the order of the class body. -/
def members : List GateVerdict := [pass, fail, error, waived]

end GateVerdict

structure GateResultRecord where
  gateId : String
  runId : String
  stepId : String
  verdict : GateVerdict
  evidenceJson : String
  executor : String
  candidateSha : String
  startedAt : String
  endedAt : String
  deriving DecidableEq

structure ApprovalRecord where
  approvalId : String
  runId : String
  gateId : String
  candidateSha : String
  operator : String
  decidedAt : String
  artifactPath : String
  purpose : String := ""
  decisionJson : String := ""
  deriving DecidableEq

def purposeCheckpoint : String := "checkpoint"

/-- The control database, with the tables a decision about a run is made from. -/
structure ControlTables where
  db : Tables
  gateRows : List GateResultRecord
  approvalRows : List ApprovalRecord
  journal : CommandTable

/-! ### The methods -/

structure RecordGateResult where
  runId : String
  stepId : String
  verdict : StateArg GateVerdict
  candidateSha : String
  evidenceJson : String := ""
  executor : String := ""
  startedAt : String := ""
  endedAt : Option String := none
  gateId : Option String := none

structure RecordApproval where
  runId : String
  gateId : String := ""
  candidateSha : String
  operator : String
  artifactPath : String := ""
  decidedAt : Option String := none
  approvalId : Option String := none
  purpose : String := ""
  decisionJson : String := ""

def coerceVerdict (host : Host) : StateArg GateVerdict → Except DbError GateVerdict
  | .member v  => .ok v
  | .wire text =>
    match GateVerdict.members.find? fun v => v.value = text with
    | some v => .ok v
    | none   => .error (.external "UnknownStateError"
        ("control_db: " ++ host.quote text ++ " is not a gate verdict — the vocabulary is: " ++
          ", ".intercalate (GateVerdict.members.map GateVerdict.value)))

namespace ControlTables

/-- `gate_results` of a run and a candidate. An empty argument is no filter; the order of the rows
is left out. -/
def gateResults (runId candidateSha : String) (s : ControlTables) : List GateResultRecord :=
  s.gateRows.filter fun g =>
    (runId = "" ∨ g.runId = runId) ∧ (candidateSha = "" ∨ g.candidateSha = candidateSha)

/-- `approvals` of a run, up to their order. -/
def approvals (runId : String) (s : ControlTables) : List ApprovalRecord :=
  s.approvalRows.filter fun a => runId = "" ∨ a.runId = runId

/-- `record_gate_result`, with the random part of a new id and the clock. -/
def recordGateResult (host : Host) (a : RecordGateResult) (hex clock : String)
    (s : ControlTables) : Except DbError (ControlTables × GateResultRecord) := do
  let sha ← require a.candidateSha "candidate_sha"
  let step ← require a.stepId "step_id"
  let decision ← coerceVerdict host a.verdict
  let row : GateResultRecord :=
    { gateId := orElse a.gateId ("gate-" ++ hex), runId := a.runId, stepId := step
      verdict := decision, evidenceJson := a.evidenceJson, executor := a.executor
      candidateSha := sha, startedAt := a.startedAt, endedAt := orElse a.endedAt clock }
  if (s.db.getRun a.runId).isNone then .error (.unknownRun a.runId)
  else if s.gateRows.any fun g => g.gateId = row.gateId then
    .error (.integrity "UNIQUE constraint failed: gate_results.gate_id")
  else .ok ({ s with gateRows := s.gateRows ++ [row] }, row)

/-- `record_approval`, with the random part of a new id and the clock. -/
def recordApproval (a : RecordApproval) (hex clock : String) (s : ControlTables) :
    Except DbError (ControlTables × ApprovalRecord) := do
  let sha ← require a.candidateSha "candidate_sha"
  let who ← require a.operator "operator"
  let row : ApprovalRecord :=
    { approvalId := orElse a.approvalId ("apr-" ++ hex), runId := a.runId, gateId := a.gateId
      candidateSha := sha, operator := who, decidedAt := orElse a.decidedAt clock
      artifactPath := a.artifactPath, purpose := a.purpose, decisionJson := a.decisionJson }
  if (s.db.getRun a.runId).isNone then .error (.unknownRun a.runId)
  else if s.approvalRows.any fun b => b.approvalId = row.approvalId then
    .error (.integrity "UNIQUE constraint failed: approvals.approval_id")
  else .ok ({ s with approvalRows := s.approvalRows ++ [row] }, row)

/-! ### The gate context -/

/-- `(gate_id, candidate_sha)` already carries a signature that clears a checkpoint of the run. -/
def Approved (run : RunRecord) (gateId candidateSha : String) (s : ControlTables) : Prop :=
  ∃ a ∈ s.approvals run.runId, (a.purpose = "" ∨ a.purpose = purposeCheckpoint) ∧
    a.gateId = gateId ∧ a.candidateSha = candidateSha

instance (run : RunRecord) (gateId candidateSha : String) (s : ControlTables) :
    Decidable (s.Approved run gateId candidateSha) :=
  inferInstanceAs (Decidable (∃ a ∈ s.approvals run.runId,
    (a.purpose = "" ∨ a.purpose = purposeCheckpoint) ∧
      a.gateId = gateId ∧ a.candidateSha = candidateSha))

def runGateContext (run : RunRecord) (pendingOnly : Bool) (s : ControlTables) : List String :=
  let gates := s.gateResults run.runId run.candidateSha
  if gates = [] then
    if pendingOnly ∧ s.Approved run "" run.candidateSha then [] else [""]
  else
    (((gates.filter fun g => ¬ pendingOnly ∨ ¬ s.Approved run g.gateId g.candidateSha).map
      GateResultRecord.gateId).dedup).insertionSort (· ≤ ·)

variable {s : ControlTables} {run : RunRecord} {gateId : String}

lemma mem_runGateContext :
    gateId ∈ s.runGateContext run true ↔
      (∃ g ∈ s.gateResults run.runId run.candidateSha,
        ¬ s.Approved run g.gateId g.candidateSha ∧ g.gateId = gateId) ∨
      (s.gateResults run.runId run.candidateSha = [] ∧
        ¬ s.Approved run "" run.candidateSha ∧ gateId = "") := by
  rw [runGateContext]
  by_cases hgates : s.gateResults run.runId run.candidateSha = []
  · by_cases happroved : s.Approved run "" run.candidateSha
    · simp [hgates, happroved]
    · simp [hgates, happroved]
  · rw [if_neg hgates, List.mem_insertionSort, List.mem_dedup, List.mem_map]
    constructor
    · rintro ⟨g, hg, rfl⟩
      obtain ⟨hg, hpending⟩ := List.mem_filter.mp hg
      exact Or.inl ⟨g, hg, by simpa using hpending, rfl⟩
    · rintro (⟨g, hg, hpending, rfl⟩ | ⟨hnone, -⟩)
      · exact ⟨g, List.mem_filter.mpr ⟨hg, by simpa using hpending⟩, rfl⟩
      · exact absurd hnone hgates

lemma nodup_runGateContext (pendingOnly : Bool) :
    (s.runGateContext run pendingOnly).Nodup := by
  rw [runGateContext]
  split_ifs
  · exact List.nodup_nil
  · exact List.nodup_singleton _
  · exact ((List.perm_insertionSort _ _).nodup_iff).mpr (List.nodup_dedup _)

end ControlTables

end AgenticDynamics.Control
