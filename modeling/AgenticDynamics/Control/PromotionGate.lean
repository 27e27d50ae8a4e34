import AgenticDynamics.Control.DecisionContract
import AgenticDynamics.Control.PromotionSafety

/-!
# The promotion gate

What a promotion checks before its push: the head against the commit the ledger names, the phases of
the ledger, the approval of a run that was left awaiting, and the bytes of the ledger against the
digest of the run's row. Each check reads its evidence by itself, and some pass over what they
cannot read.
-/

namespace AgenticDynamics.Control

open Python

/-! ### Reading a ledger -/

section Ledger

variable (rt : Runtime)

/-- `value.get`, which only a dictionary has. -/
def asDict : Json → Except PromoteError (Dict Json)
  | .obj fields => .ok fields
  | value       => .error (.raised ("AttributeError(\"'" ++ value.typeName ++
      "' object has no attribute 'get'\")"))

/-- `str(d.get(key, '') or '')`. -/
def textOrBlank (key : String) (d : Dict Json) : String :=
  match d.get? key with
  | some value => if value.truthy then value.text rt else ""
  | none       => ""

/-- `str(d.get(key, ''))`. -/
def textOf (key : String) (d : Dict Json) : String := ((d.get? key).map (Json.text rt)).getD ""

/-- `ledger.get('phases') or []`, each with its `get`. -/
def ledgerPhases (ledger : Dict Json) : Except PromoteError (List (Dict Json)) :=
  match ledger.get? "phases" with
  | none             => .ok []
  | some (.arr rows) => rows.mapM asDict
  | some value       =>
    if value.truthy then .error (.raised "an entry of phases has no attribute 'get'") else .ok []

def ledgerRunId (ledger : Dict Json) : String := strip (textOrBlank rt "run_id" ledger)

/-- `ph.get('test_executed_success') is True`. -/
def testPassed (phase : Dict Json) : Bool :=
  match phase.get? "test_executed_success" with
  | some (.bool b) => b
  | _              => false

/-- A phase of the ledger is not in the way of the promotion. -/
def checkPhase (host : Host) (phase : Dict Json) : Except PromoteError Unit :=
  let name := textOf host.toRuntime "phase" phase
  if textOf host.toRuntime "status" phase ≠ "ok" then
    .error (.refused ("phase '" ++ name ++ "' recorded " ++ textOf host.toRuntime "status" phase ++
      " — an unverified phase can never be promoted"))
  else if textOf host.toRuntime "kind" phase = "test" ∧ testPassed phase = false then
    .error (.refused ("test phase '" ++ name ++ "' has no independent success verdict (" ++
      "test_executed_success=" ++
      host.repr ((phase.get? "test_executed_success").getD .null) ++ ") — the declared " ++
      "verification never ran; promotion is forbidden"))
  else if textOrBlank host.toRuntime "commit_hash" phase = "" then
    .error (.refused ("phase '" ++ name ++ "' recorded no commit_hash"))
  else .ok ()

end Ledger

/-! ### What the gate meets -/

/-- The candidate's worktree, as git and the file system show it. -/
structure Worktree where
  head : String
  treeOf : String → String
  base : Except PromoteError Unit
  stale : Option String
  mergeBase : String
  diff : String
  /-- The path of the approval of a phase. -/
  approvalPath : String → String
  /-- The text of a file. -/
  file : String → Option String
  /-- The path inside the worktree, if it is inside. -/
  inside : String → Option String
  /-- The text that is committed at the head under a path inside the worktree. -/
  committed : String → Option String

/-- What keeps the control database from opening for the binding of the ledger, and for the gate
context, and the database. -/
structure ControlReads where
  binding : Option DbError := none
  context : Option DbError := none
  store : ControlTables

structure GateArgs extends PromoteArgs where
  spec : String
  approval : Option String := none
  dryRun : Bool := false

section Gate

variable (host : Host)

/-- `_load_approval`: the committed text of an artifact inside the worktree, or the file that was
handed over. -/
def loadApproval (w : Worktree) (a : GateArgs) (ledger : Dict Json) : Except PromoteError String := do
  let path ← match a.approval with
    | some path => .ok path
    | none      =>
      let phase := strip (textOrBlank host.toRuntime "awaiting_phase" ledger)
      if phase = "" then
        .error (.refused ("run is awaiting operator approval and the ledger names no " ++
          "awaiting_phase — pass --approval <path> explicitly"))
      else .ok (w.approvalPath phase)
  match w.file path, w.inside path with
  | none, _           => .error (.refused ("run is awaiting operator approval and no approval " ++
      "artifact binds it (" ++ path ++ " not found)"))
  | some text, none   => .ok text
  | some _, some rel  =>
    match w.committed rel with
    | some text => .ok text
    | none      => .error (.refused ("approval artifact " ++ path ++ " exists but is not " ++
        "committed at HEAD — approvals must be committed (the resume contract reads committed " ++
        "bytes; commit the artifact before promoting)"))

/-- `_durable_gate_context`: the one gate of the run, if it can be proved. -/
def durableGateContext (reads : ControlReads) (runId : String) : Option String :=
  if runId = "" then none
  else
    match reads.context, reads.store.db.getRun runId with
    | none, some run =>
      match reads.store.runGateContext run false with
      | [gate] => some gate
      | _      => none
    | _, _           => none

/-- `text or None`. -/
def orNone (text : String) : Option String := if text = "" then none else some text

/-- The expectations `_verify_approval` passes on. -/
def approvalExpectations (w : Worktree) (reads : ControlReads) (a : GateArgs) (ledger : Dict Json) :
    Expectations where
  purpose := some purposeCheckpoint
  candidateSha := some w.head
  spec := orNone a.spec
  phase := orNone (textOrBlank host.toRuntime "awaiting_phase" ledger)
  tree := orNone (w.treeOf w.head)
  runId := orNone (textOrBlank host.toRuntime "run_id" ledger)
  gateId := durableGateContext reads (textOrBlank host.toRuntime "run_id" ledger)

/-- `_verify_ledger_binding`: what cannot be read is passed over. -/
def verifyLedgerBinding (reads : ControlReads) (ledgerBytes : String) (ledger : Dict Json) :
    Except PromoteError Unit :=
  if ledgerRunId host.toRuntime ledger = "" then .ok ()
  else
    match reads.binding, reads.store.db.getRun (ledgerRunId host.toRuntime ledger) with
    | none, some run =>
      if run.resultDigest = "" ∨ host.sha256 ledgerBytes = run.resultDigest then .ok ()
      else .error (.refused ("the ledger is not the artifact the control outcome recorded: it " ++
        "hashes " ++ firstChars 16 (host.sha256 ledgerBytes) ++ "…, but the runs row for " ++
        ledgerRunId host.toRuntime ledger ++ " binds " ++ firstChars 16 run.resultDigest ++
        "… — the artifact was modified (or swapped) after its outcome was recorded"))
    | _, _           => .ok ()

/-- `bool(ledger.get('awaiting', False))`. -/
def awaitsApproval (ledger : Dict Json) : Bool :=
  ((ledger.get? "awaiting").map Json.truthy).getD false

/-- A run that was left awaiting needs an approval that binds the candidate. -/
def checkApproval (w : Worktree) (reads : ControlReads) (a : GateArgs) (ledger : Dict Json) :
    Except PromoteError Unit :=
  if awaitsApproval ledger then
    match loadApproval host w a ledger with
    | .error e => .error e
    | .ok text =>
      let failed := validateDecision host (parseApprovalDecision host text)
        (approvalExpectations host w reads a ledger)
      if failed = [] then .ok ()
      else .error (.refused ("approval fails its checks " ++ ", ".intercalate failed ++
        " — an approval must name this candidate (" ++ firstChars 12 w.head ++
        "), a real operator, and a real date"))
  else .ok ()

def checkStale (w : Worktree) : Except PromoteError Unit :=
  match w.stale with
  | some why => .error (.refused why)
  | none     => .ok ()

/-- The note that the candidate was verified prints its cost. -/
def checkCost (ledger : Dict Json) : Except PromoteError Unit :=
  match (Json.orElse (ledger.get? "total_cost_usd") (.int 0)).toFloat host.toRuntime with
  | .error e => .error (.raised e)
  | .ok _    => .ok ()

/-- The candidate is the commit the ledger names, as far as seven characters tell. -/
def checkHead (w : Worktree) (ledger : Dict Json) : Except PromoteError Unit :=
  let ledgerSha := textOrBlank host.toRuntime "git_sha" ledger
  if ledgerSha = "" then
    .error (.refused "ledger carries no git_sha — no candidate identity to verify")
  else if ¬ startsWith w.head (firstChars 7 ledgerSha) then
    .error (.refused ("candidate rewritten since verification: worktree HEAD " ++
      firstChars 12 w.head ++ " != ledger git_sha " ++ firstChars 12 ledgerSha ++
      " — the candidate was modified after its gates ran; verify the new head and re-run before " ++
      "promoting"))
  else .ok ()

/-- Every phase of the ledger, of which there is one, passed. -/
def checkPhases (ledger : Dict Json) : Except PromoteError Unit :=
  match ledgerPhases ledger with
  | .error e   => .error e
  | .ok []     => .error (.refused "ledger has no phases — nothing was run")
  | .ok phases => phases.forM (checkPhase host)

/-- The checks of `_run_promotion` up to its dry run. -/
def verifyPromotion (w : Worktree) (reads : ControlReads) (a : GateArgs) (ledgerBytes : String)
    (document : Json) : Except PromoteError Unit := do
  let ledger ← asDict document
  checkHead host w ledger
  checkPhases host ledger
  checkApproval host w reads a ledger
  w.base
  checkStale w
  verifyLedgerBinding host reads ledgerBytes ledger
  checkCost host ledger

/-- What the steps between the checks and the push meet, and the database as they find it. -/
structure PushScene where
  opening : Option DbError := none
  intent : Option DbFault := none
  hex : String
  clock : String
  claiming : Option DbError := none
  claim : Oracle DbError
  store : ControlTables

/-- `_run_promotion` comes to its push. -/
def reachesPush (w : Worktree) (reads : ControlReads) (a : GateArgs) (ledgerBytes : String)
    (ledger : Dict Json) (scene : PushScene) : Bool :=
  if strip a.operator = "" ∨ strip a.rationale = "" then false
  else
    match verifyPromotion host w reads a ledgerBytes (.obj ledger) with
    | .error _ => false
    | .ok ()   =>
      if a.dryRun ∨ w.mergeBase = "" ∨ w.diff = "" then false
      else
        let runId := ledgerRunId host.toRuntime ledger
        match journalIntent host ⟨runId, a.spec, w.head⟩ a.toPromoteArgs scene.opening scene.intent
          scene.hex scene.clock scene.store with
        | (_, .error _)    => false
        | (t, .ok command) =>
          command.state ≠ .completed ∧ (runId = "" ∨
            (claimRun host scene.claiming scene.claim runId w.head a.base t).toBool)

/-! ### What the gate is for -/

variable (w : Worktree) (reads : ControlReads) (a : GateArgs) (ledgerBytes : String)
  (ledger : Dict Json)

/-- The decision names this spec, phase, candidate, tree and run, and one of the run's gates. -/
def Authorizes (d : ApprovalDecision) : Prop :=
  validateDecision host d
      { purpose := some purposeCheckpoint, candidateSha := some w.head, spec := some a.spec
        phase := some (textOrBlank host.toRuntime "awaiting_phase" ledger)
        tree := some (w.treeOf w.head)
        runId := some (textOrBlank host.toRuntime "run_id" ledger) } = [] ∧
    ∀ run, reads.store.db.getRun (textOrBlank host.toRuntime "run_id" ledger) = some run →
      d.gateId ∈ reads.store.runGateContext run false

/-- The head is the commit the ledger names; every phase is ok; every test was run on the tree that is
pushed, so that nothing was committed after the last of them; a run that was left awaiting carries an
approval that authorizes it; and the ledger is the one that the run's row names. -/
structure GateSound : Prop where
  head : w.head = textOrBlank host.toRuntime "git_sha" ledger
  phases : ∀ phases, ledgerPhases ledger = .ok phases → ∀ phase ∈ phases,
    textOf host.toRuntime "status" phase = "ok"
  verdicts : ∀ phases, ledgerPhases ledger = .ok phases → ∀ phase ∈ phases,
    textOf host.toRuntime "kind" phase = "test" →
      testPassed phase = true ∧
        w.treeOf (textOrBlank host.toRuntime "commit_hash" phase) = w.treeOf w.head
  approval : awaitsApproval ledger = true → ∃ text, loadApproval host w a ledger = .ok text ∧
    Authorizes host w reads a ledger (parseApprovalDecision host text)
  digest : ledgerRunId host.toRuntime ledger ≠ "" → ∀ run,
    reads.store.db.getRun (ledgerRunId host.toRuntime ledger) = some run → run.resultDigest ≠ "" →
      host.sha256 ledgerBytes = run.resultDigest

/-- What an approval says where nothing is expected of it. -/
structure Unasked (d : ApprovalDecision) : Prop where
  spec : a.spec = "" → d.spec = ""
  phase : textOrBlank host.toRuntime "awaiting_phase" ledger = "" → d.phase = ""
  tree : w.treeOf w.head = "" → d.tree = ""
  runId : textOrBlank host.toRuntime "run_id" ledger = "" → d.runId = ""
  gate : durableGateContext reads (textOrBlank host.toRuntime "run_id" ledger) = none →
    ∀ run, reads.store.db.getRun (textOrBlank host.toRuntime "run_id" ledger) = some run →
      d.gateId ∈ reads.store.runGateContext run false

/-- The evidence that the gate passes over agrees: the rest of the recorded commit, the commits the
tests were run on, what an approval says unasked, and, if the database does not open, the digest. -/
structure Covered : Prop where
  rest : (textOrBlank host.toRuntime "git_sha" ledger).toList.length = w.head.toList.length ∧
    (textOrBlank host.toRuntime "git_sha" ledger).toList.drop 7 = w.head.toList.drop 7
  tested : ∀ phases, ledgerPhases ledger = .ok phases → ∀ phase ∈ phases,
    textOf host.toRuntime "kind" phase = "test" →
      w.treeOf (textOrBlank host.toRuntime "commit_hash" phase) = w.treeOf w.head
  unasked : awaitsApproval ledger = true → ∀ text, loadApproval host w a ledger = .ok text →
    Unasked host w reads a ledger (parseApprovalDecision host text)
  unread : ledgerRunId host.toRuntime ledger ≠ "" → reads.binding.isSome → ∀ run,
    reads.store.db.getRun (ledgerRunId host.toRuntime ledger) = some run → run.resultDigest ≠ "" →
      host.sha256 ledgerBytes = run.resultDigest

variable {host w reads a ledgerBytes ledger}

/-! ### What the gate checks -/

lemma forM_eq_ok {α : Type} {f : α → Except PromoteError Unit} {l : List α}
    (h : l.forM f = .ok ()) : ∀ x ∈ l, f x = .ok () := by
  induction l with
  | nil => simp
  | cons y l ih =>
    have hcons : (do f y; l.forM f) = .ok () := h
    obtain ⟨⟨⟩, hy, hl⟩ := bind_eq_ok.mp hcons
    intro x hx
    rcases List.mem_cons.mp hx with rfl | hx
    · exact hy
    · exact ih hl x hx

lemma verifyPromotion_eq_ok
    (h : verifyPromotion host w reads a ledgerBytes (.obj ledger) = .ok ()) :
    checkHead host w ledger = .ok () ∧ checkPhases host ledger = .ok () ∧
      checkApproval host w reads a ledger = .ok () ∧
      verifyLedgerBinding host reads ledgerBytes ledger = .ok () := by
  rw [verifyPromotion] at h
  obtain ⟨document, hdocument, h⟩ := bind_eq_ok.mp h
  cases hdocument
  obtain ⟨⟨⟩, hhead, h⟩ := bind_eq_ok.mp h
  obtain ⟨⟨⟩, hphases, h⟩ := bind_eq_ok.mp h
  obtain ⟨⟨⟩, happroval, h⟩ := bind_eq_ok.mp h
  obtain ⟨⟨⟩, -, h⟩ := bind_eq_ok.mp h
  obtain ⟨⟨⟩, -, h⟩ := bind_eq_ok.mp h
  obtain ⟨⟨⟩, hbinding, -⟩ := bind_eq_ok.mp h
  exact ⟨hhead, hphases, happroval, hbinding⟩

lemma checkHead_eq_ok (h : checkHead host w ledger = .ok ()) :
    (textOrBlank host.toRuntime "git_sha" ledger).toList.take 7 <+: w.head.toList := by
  rw [checkHead] at h
  split_ifs at h with hblank hstarts
  have hprefixed := List.isPrefixOf_iff_prefix.mp hstarts
  rwa [firstChars, String.toList_ofList] at hprefixed

lemma checkPhases_eq_ok (h : checkPhases host ledger = .ok ()) {phases : List (Dict Json)}
    (hphases : ledgerPhases ledger = .ok phases) {phase : Dict Json} (hphase : phase ∈ phases) :
    textOf host.toRuntime "status" phase = "ok" ∧
      (textOf host.toRuntime "kind" phase = "test" → testPassed phase = true) := by
  rw [checkPhases, hphases] at h
  cases phases with
  | nil => cases hphase
  | cons first rest =>
    have hchecked := forM_eq_ok h phase hphase
    rw [checkPhase] at hchecked
    split_ifs at hchecked with hstatus htest
    refine ⟨not_not.mp hstatus, fun hkind => ?_⟩
    cases hpassed : testPassed phase
    · exact absurd ⟨hkind, hpassed⟩ htest
    · rfl

lemma checkApproval_eq_ok (h : checkApproval host w reads a ledger = .ok ())
    (hawaiting : awaitsApproval ledger = true) :
    ∃ text, loadApproval host w a ledger = .ok text ∧
      validateDecision host (parseApprovalDecision host text)
        (approvalExpectations host w reads a ledger) = [] := by
  rw [checkApproval, if_pos hawaiting] at h
  cases hload : loadApproval host w a ledger with
  | error e =>
    rw [hload] at h
    cases h
  | ok text =>
    rw [hload] at h
    dsimp only at h
    split_ifs at h with hvalid
    exact ⟨text, rfl, hvalid⟩

lemma verifyLedgerBinding_eq_ok (h : verifyLedgerBinding host reads ledgerBytes ledger = .ok ())
    (hrun : ledgerRunId host.toRuntime ledger ≠ "") (hopen : reads.binding = none) {run : RunRecord}
    (hget : reads.store.db.getRun (ledgerRunId host.toRuntime ledger) = some run)
    (hdigest : run.resultDigest ≠ "") : host.sha256 ledgerBytes = run.resultDigest := by
  rw [verifyLedgerBinding, if_neg hrun, hopen, hget] at h
  dsimp only at h
  split_ifs at h with hbound
  exact hbound.resolve_left hdigest

/-! ### What it covers -/

lemma validateDecision_eq_nil_iff {d : ApprovalDecision} {e : Expectations} :
    validateDecision host d e = [] ↔
      ¬ (differs e.purpose d.purpose = true ∧ d.declaresPurpose = true) ∧
      differs e.spec d.spec = false ∧ differs e.phase d.phase = false ∧
      (e.candidateSha.any fun expected => !shaMatches expected d.candidateSha) = false ∧
      differs e.tree d.tree = false ∧ differs e.runId d.runId = false ∧
      differs e.gateId d.gateId = false ∧ operatorIsPlaceholder host d.operator = false ∧
      dateIsValid host d.date = true := by
  simp only [validateDecision, List.append_eq_nil_iff, ite_eq_right_iff, ite_eq_left_iff,
    List.cons_ne_nil, imp_false, Bool.not_eq_true, Bool.not_eq_false, and_assoc]

lemma differs_some_iff {expected found : String} :
    differs (some expected) found = false ↔ found = expected := by
  simp [differs]

lemma differs_orNone_iff {expected found : String} :
    differs (orNone expected) found = false ↔ expected ≠ "" → found = expected := by
  rw [orNone]
  by_cases hblank : expected = ""
  · simp [hblank, differs]
  · simp [hblank, differs_some_iff]

lemma authorizes_iff {d : ApprovalDecision}
    (h : validateDecision host d (approvalExpectations host w reads a ledger) = []) :
    Authorizes host w reads a ledger d ↔ Unasked host w reads a ledger d := by
  obtain ⟨hpurpose, hspec, hphase, hsha, htree, hrun, hgate, hoperator, hdate⟩ :=
    validateDecision_eq_nil_iff.mp h
  rw [approvalExpectations] at hpurpose hspec hphase hsha htree hrun hgate
  have hspec' := differs_orNone_iff.mp hspec
  have hphase' := differs_orNone_iff.mp hphase
  have htree' := differs_orNone_iff.mp htree
  have hrun' := differs_orNone_iff.mp hrun
  have hasked : ∀ {expected found : String}, (expected ≠ "" → found = expected) →
      (found = expected ↔ (expected = "" → found = "")) := by
    intro expected found hfilled
    by_cases hblank : expected = ""
    · simp [hblank]
    · simp [hblank, hfilled hblank]
  rw [Authorizes, validateDecision_eq_nil_iff]
  constructor
  · rintro ⟨⟨-, hs, hp, -, ht, hr, -, -, -⟩, hcontext⟩
    exact
      { spec := (hasked hspec').mp (differs_some_iff.mp hs)
        phase := (hasked hphase').mp (differs_some_iff.mp hp)
        tree := (hasked htree').mp (differs_some_iff.mp ht)
        runId := (hasked hrun').mp (differs_some_iff.mp hr)
        gate := fun _ => hcontext }
  · intro hunasked
    refine ⟨⟨hpurpose, differs_some_iff.mpr ((hasked hspec').mpr hunasked.spec),
      differs_some_iff.mpr ((hasked hphase').mpr hunasked.phase), hsha,
      differs_some_iff.mpr ((hasked htree').mpr hunasked.tree),
      differs_some_iff.mpr ((hasked hrun').mpr hunasked.runId), rfl, hoperator, hdate⟩, ?_⟩
    intro run hget
    cases hproved : durableGateContext reads (textOrBlank host.toRuntime "run_id" ledger) with
    | none => exact hunasked.gate hproved run hget
    | some gate =>
      -- the one gate was expected
      rw [hproved, differs_some_iff] at hgate
      rw [durableGateContext] at hproved
      split_ifs at hproved
      rw [hget] at hproved
      split at hproved
      · rename_i hsome
        cases hsome
        split at hproved
        · rename_i hcontext
          cases hproved
          rw [hcontext, hgate]
          exact List.mem_singleton_self _
        · cases hproved
      · cases hproved

lemma eq_of_take_drop {l l' : List Char} {n : ℕ} (hlength : l.length = l'.length)
    (htake : l.take n <+: l') (hdrop : l.drop n = l'.drop n) : l = l' := by
  have hhead : l.take n = l'.take n := by
    have hprefixed := List.prefix_iff_eq_take.mp htake
    rwa [List.length_take, hlength, ← List.take_eq_take_min] at hprefixed
  rw [← List.take_append_drop n l, hhead, hdrop, List.take_append_drop]

end Gate

def ledgerPhase (name kind commitHash : String) : Dict Json :=
  [("phase", .str name), ("kind", .str kind), ("status", .str "ok"),
    ("test_executed_success", .bool true), ("commit_hash", .str commitHash)]

def nightlyLedger (phases : List (Dict Json)) : Dict Json :=
  [("git_sha", .str "abcdef1"), ("run_id", .str "run-1"), ("phases", .arr (phases.map .obj))]

/-- A worktree whose head is the commit of the ledger, and whose first commit has another tree. -/
def nightlyWorktree : Worktree where
  head := "abcdef1"
  treeOf commit := if commit = "abcdef0" then "7ree0" else "7ree1"
  base := .ok ()
  stale := none
  mergeBase := "ba5e"
  diff := "+1"
  approvalPath phase := "approvals/nightly/" ++ phase ++ "_approval.md"
  file _ := none
  inside _ := none
  committed _ := none

def nightlyArgs : GateArgs where
  spec := "nightly"
  operator := "dana"
  rationale := "ship it"

def nightlyScene : PushScene where
  hex := "0a"
  clock := "2026-09-20T10:00:00Z"
  claim := quietOracle
  store := promotableRun

def testedLedger : Dict Json :=
  nightlyLedger [ledgerPhase "build" "agent" "abcdef1", ledgerPhase "verify" "test" "abcdef1"]

/-- A test of the first commit, and a phase that committed after it. -/
def outrunLedger : Dict Json :=
  nightlyLedger [ledgerPhase "verify" "test" "abcdef0", ledgerPhase "docs" "agent" "abcdef1"]

lemma pushes_computed :
    reachesPush journalHost nightlyWorktree { store := promotableRun } nightlyArgs "" testedLedger
        nightlyScene = true ∧
      reachesPush journalHost nightlyWorktree { store := promotableRun } nightlyArgs "" outrunLedger
        nightlyScene = true := by
  decide +kernel

lemma mapM_asDict (rows : List (Dict Json)) : (rows.map Json.obj).mapM asDict = .ok rows := by
  induction rows with
  | nil => rfl
  | cons row rows ih =>
    rw [List.map_cons, List.mapM_cons, ih]
    rfl

lemma ledgerPhases_nightlyLedger (phases : List (Dict Json)) :
    ledgerPhases (nightlyLedger phases) = .ok phases := mapM_asDict phases

end AgenticDynamics.Control
