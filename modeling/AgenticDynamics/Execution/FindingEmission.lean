import AgenticDynamics.Control.DecisionContract
import AgenticDynamics.Execution.RunSuccess

/-!
# Findings and the tree gate

A phase that its gates have left in order is published as a finding or a report, and only then is
its tree compared with the trees that were discarded. The tree gate is the last one, so what is
published and what is recorded may differ in the status of the phase.
-/

namespace AgenticDynamics.Execution

open Python Control

/-! ### The tree gate -/

/-- What the tree gate reads once a phase is committed. -/
structure TreeEvidence where
  /-- The tree of the head without its approvals, empty where git has none. -/
  phaseTree : String
  branch : String
  /-- `discarded_trees.jsonl`, where there is one. -/
  ledger : Option String
  /-- The approval of a phase as committed at a head: absent, unreadable, or its text. -/
  approval : String → String → Option (Option String)

/-- The evidence of `approval_authorizes_tree`. -/
structure ApprovalEvidence where
  authorized : Bool
  presentAtPreHead : Bool
  parsed : Option ApprovalDecision
  failedChecks : List String

structure RelabelGate where
  reason : String
  phaseTree : String
  branch : String
  matchingDiscardedTree : Dict Json
  approval : ApprovalEvidence

section TreeGate

variable (host : Host)

def loadDiscardedTrees (ledger : Option String) : List (Dict Json) :=
  (splitlines (ledger.getD "")).filterMap fun line =>
    match host.loads line with
    | .ok (.obj entry) => some entry
    | _                => none

def approvalAuthorizesTree (phaseName treeHash preHead : String)
    (approval : String → String → Option (Option String)) : ApprovalEvidence :=
  match if preHead = "" then none else approval phaseName preHead with
  | none             => ⟨false, false, none, ["committed_before_phase"]⟩
  | some none        => ⟨false, true, none, ["committed_before_phase"]⟩
  | some (some text) =>
    let decision := parseApprovalDecision host text
    let failed := validateDecision host decision
      { purpose := some "tree_reuse", phase := some phaseName, tree := some treeHash }
    ⟨failed = [], true, some decision, failed⟩

/-- `d.get(key) == value`, for a text. -/
def hasText (key value : String) (entry : Dict Json) : Bool :=
  match Dict.get? key entry with
  | some (.str found) => found = value
  | _                 => false

/-- The gate `_enforce_tree_gate` records on a phase. -/
def relabelGate (phaseName preHead : String) (e : TreeEvidence) : Option RelabelGate :=
  if e.phaseTree = "" then none
  else
    let found := (loadDiscardedTrees host e.ledger).find? fun entry =>
      hasText "tree_hash" e.phaseTree entry ∧ hasText "branch" e.branch entry
    found.map fun entry =>
      let approval := approvalAuthorizesTree host phaseName e.phaseTree preHead e.approval
      { reason := if approval.authorized then "APPROVED" else "RELABEL"
        phaseTree := e.phaseTree
        branch := e.branch
        matchingDiscardedTree := entry
        approval }

/-- The message of a gate that does not authorize the tree. -/
def RelabelGate.message (gate : RelabelGate) (specName phaseName : String) : String :=
  let shown (key : String) : String :=
    Json.text host.toRuntime ((Dict.get? key gate.matchingDiscardedTree).getD .null)
  "RELABEL — phase '" ++ (phaseName ++ "' committed tree " ++ gate.phaseTree ++
    ", which was recorded as DISCARDED on " ++ shown "discarded_at" ++ " (commit " ++
    shown "commit" ++ ", reason=" ++ shown "reason" ++
    "): discarded work re-presented as fresh work — the identical-tree proof is that both " ++
    "trees ARE " ++ gate.phaseTree ++ " (byte-identical). The operator-approval escape is not " ++
    "in effect: an operator-signed approvals/" ++ specName ++ "/" ++ phaseName ++
    "_tree_reuse.md naming this tree + phase, committed before the phase, authorizes the reuse.")

/-- What `_enforce_tree_gate` has to say against a phase. -/
def treeRefusal (specName phaseName preHead : String) (e : TreeEvidence) : Option String :=
  (relabelGate host phaseName preHead e).bind fun gate =>
    if gate.approval.authorized then none else some (gate.message host specName phaseName)

end TreeGate

/-! ### Discarded trees -/

namespace TreeEvidence

variable (host : Host) (phaseName preHead : String) (e : TreeEvidence)

/-- The approval of the phase, committed before it, is valid and names the phase and the tree. -/
def Approves : Prop :=
  preHead ≠ "" ∧ ∃ text, e.approval phaseName preHead = some (some text) ∧
    validateDecision host (parseApprovalDecision host text)
      { purpose := some "tree_reuse", phase := some phaseName, tree := some e.phaseTree } = []

/-- A discarded tree of the spec and the branch. -/
def IsDiscarded (entry : Dict Json) : Prop :=
  entry ∈ loadDiscardedTrees host e.ledger ∧ hasText "tree_hash" e.phaseTree entry = true ∧
    hasText "branch" e.branch entry = true

/-- The tree of the phase is a discarded one whose reuse is not approved. -/
def Relabels : Prop :=
  e.phaseTree ≠ "" ∧ (∃ entry, e.IsDiscarded host entry) ∧ ¬ e.Approves host phaseName preHead

end TreeEvidence

section Discarded

variable {host : Host} {phaseName preHead : String} {e : TreeEvidence}

lemma authorized_iff : (approvalAuthorizesTree host phaseName e.phaseTree preHead
    e.approval).authorized = true ↔ e.Approves host phaseName preHead := by
  rw [approvalAuthorizesTree, TreeEvidence.Approves]
  by_cases hhead : preHead = ""
  · simp [hhead]
  · simp only [if_neg hhead]
    cases e.approval phaseName preHead with
    | none      => simp
    | some text =>
      cases text with
      | none      => simp
      | some text => simp [hhead]

lemma relabelGate_of_relabels (specName : String) (h : e.Relabels host phaseName preHead) :
    ∃ gate, relabelGate host phaseName preHead e = some gate ∧ gate.reason = "RELABEL" ∧
      gate.phaseTree = e.phaseTree ∧ gate.branch = e.branch ∧
      e.IsDiscarded host gate.matchingDiscardedTree ∧
      treeRefusal host specName phaseName preHead e =
        some (gate.message host specName phaseName) := by
  obtain ⟨htree, ⟨entry, hmem, hentry⟩, hunapproved⟩ := h
  rw [← authorized_iff, Bool.not_eq_true] at hunapproved
  cases hfound : (loadDiscardedTrees host e.ledger).find? fun entry =>
      hasText "tree_hash" e.phaseTree entry ∧ hasText "branch" e.branch entry with
  | none       =>
    have hnone := List.find?_eq_none.mp hfound entry hmem
    exact absurd (by simpa using hentry) hnone
  | some found =>
    have hdiscarded : e.IsDiscarded host found :=
      ⟨List.mem_of_find?_eq_some hfound, by simpa using List.find?_some hfound⟩
    refine ⟨⟨"RELABEL", e.phaseTree, e.branch, found,
      approvalAuthorizesTree host phaseName e.phaseTree preHead e.approval⟩, ?_, rfl, rfl, rfl,
      hdiscarded, ?_⟩
    · rw [relabelGate, if_neg htree, hfound, Option.map_some]
      simp only [hunapproved]
      rfl
    · rw [treeRefusal, relabelGate, if_neg htree, hfound, Option.map_some, Option.bind_some]
      simp only [hunapproved]
      rfl

lemma treeRefusal_eq_none (specName : String) (h : ¬ e.Relabels host phaseName preHead) :
    treeRefusal host specName phaseName preHead e = none := by
  rw [treeRefusal, relabelGate]
  by_cases htree : e.phaseTree = ""
  · rw [if_pos htree]
    rfl
  rw [if_neg htree]
  cases hfound : (loadDiscardedTrees host e.ledger).find? fun entry =>
      hasText "tree_hash" e.phaseTree entry ∧ hasText "branch" e.branch entry with
  | none       => rfl
  | some found =>
    have hdiscarded : e.IsDiscarded host found :=
      ⟨List.mem_of_find?_eq_some hfound, by simpa using List.find?_some hfound⟩
    have happroved : e.Approves host phaseName preHead := by
      by_contra hunapproved
      exact h ⟨htree, ⟨found, hdiscarded⟩, hunapproved⟩
    simp only [Option.map_some, Option.bind_some, authorized_iff.mpr happroved, if_true]

end Discarded

/-! ### The emission -/

/-- What decides over emission in a run: `rag.emit_self`, `rag.emit_report` and the environment's
`FINOPS_EMIT_SELF`. -/
structure EmitParams where
  emitSelf : Option Bool
  emitReport : Bool
  emitEnv : Option String

def findingEmitEnabled (params : EmitParams) (noEmit : Bool) : Bool :=
  if noEmit then false
  else match params.emitSelf with
    | some explicit => explicit
    | none          => params.emitEnv.getD "1" ≠ "0"

/-- What a phase emits into the knowledge base. -/
inductive Emission
  | finding (phase commitHash : String)
  | report (phase : String)
  deriving DecidableEq, Repr

def Emission.phase : Emission → String
  | finding phase _ => phase
  | report phase    => phase

/-- The emissions for a record, as it stands before the tree gate. -/
def emissions (params : EmitParams) (noEmit : Bool) (finalResponse : String) (pr : PhaseResult) :
    List Emission :=
  if findingEmitEnabled params noEmit ∧ pr.kind ≠ "test" ∧ pr.status = .ok then
    if pr.commitHash ≠ "" then
      .finding pr.phase pr.commitHash ::
        (if params.emitReport ∧ finalResponse ≠ "" then [.report pr.phase] else [])
    else if finalResponse ≠ "" then [.report pr.phase]
    else []
  else []

/-- A turn of the loop with what its tree gate and its emission read. -/
structure Meeting where
  scene : Scene
  evidence : TreeEvidence
  noEmit : Bool
  finalResponse : String

structure Emitter where
  host : Host
  specName : String
  params : EmitParams
  settings : Settings

structure Emitted where
  loop : LoopState
  emitted : List Emission := []

section Turn

variable (k : Emitter)

def Meeting.sceneOf (m : Meeting) (name : String) : Scene :=
  { m.scene with
    gates := { m.scene.gates with
      tree := fun preHead => treeRefusal k.host k.specName name preHead m.evidence } }

/-- The record of an agent phase when its tree gate is reached, and the head from before it. -/
def beforeTreeGate (w : Settings) (d : PhaseDef) (seed : List AttemptRow) (executions : ℕ)
    (scene : Scene) (l : Locals) : Option (PhaseResult × String) :=
  let t := tryPhase w d seed executions scene { phase := d.name, kind := d.kind } l
  t.handled.bind fun pr => t.locals.preHead.map fun preHead =>
    (((pr.gated w d scene.gates preHead).committed w scene.gates).timed scene.gates.timedOut,
      preHead)

namespace LoopState

variable (s : LoopState)

def dueName : String := s.phases[s.index]?.elim "" PhaseDef.name

def executing : Option PhaseDef :=
  s.phases[s.index]?.filter fun d =>
    ¬ s.stopped ∧ ¬ d.Expands ∧ ¬ (s.resume ∧ d.name ∈ s.completed)

/-- The record and the head that this turn brings to the tree gate. -/
def gating (m : Meeting) : Option (PhaseDef × PhaseResult × String) :=
  (s.executing.filter fun d => d.kind ≠ "test").bind fun d =>
    (beforeTreeGate k.settings d (s.priorInvocations d.name) (s.executionCount d.name)
      (m.sceneOf k d.name) s.locals).map fun reached => (d, reached)

def emits (m : Meeting) : List Emission :=
  match s.gating k m with
  | none            => []
  | some (_, pr, _) => emissions k.params m.noEmit m.finalResponse pr

end LoopState

/-- One turn of a run that emits; none where an exception leaves the runner. -/
def Emitted.turn (r : Emitted) (m : Meeting) : Option Emitted :=
  (r.loop.turn k.settings (m.sceneOf k r.loop.dueName)).map fun loop =>
    { loop, emitted := r.emitted ++ r.loop.emits k m }

def emittedAfter (s : LoopState) (meetings : ℕ → Meeting) : ℕ → Option Emitted
  | 0     => some { loop := s }
  | n + 1 => (emittedAfter s meetings n).bind fun r => r.turn k (meetings n)

end Turn

/-! ### What a turn brings to its gate -/

variable {k : Emitter} {m : Meeting} {w : Settings} {scene : Scene} {s t : LoopState} {r : Emitted}
  {d : PhaseDef} {pr : PhaseResult} {gates : Gates} {preHead : String} {l : Locals}
  {seed : List AttemptRow} {executions : ℕ}

/-- A record that its gates may still fail. -/
def PhaseResult.Decided (pr : PhaseResult) : Prop := pr.status ≠ .awaiting

namespace PhaseResult

lemma Decided.of_failed (h : pr.status = .failed) : pr.Decided := by
  rw [PhaseResult.Decided, h]
  decide

lemma Decided.refuse (h : pr.Decided) (message : String) : (pr.refuse message).Decided := by
  rw [PhaseResult.refuse]
  split_ifs
  · exact .of_failed rfl
  · exact h

lemma Decided.enforce (h : pr.Decided) (message : Option String) :
    (pr.enforce message).Decided := by
  cases message with
  | none         => exact h
  | some message => exact h.refuse message

lemma Decided.enforceCommitPrefix (h : pr.Decided) (verdict : CommitVerdict) :
    (pr.enforceCommitPrefix verdict).Decided := by
  cases verdict with
  | conforming         => exact h
  | noChanges message  =>
    rw [PhaseResult.enforceCommitPrefix]
    split_ifs
    · exact .of_failed rfl
    · exact h
  | canonicalized note => exact h
  | violated message   => exact h.refuse message

lemma Decided.tested (h : pr.Decided) (repr : Json → String) (suite : SuiteRun)
    (targets : List String) (emptyRefuses : Bool) :
    (runTestGate repr pr suite targets emptyRefuses).Decided := by
  rw [runTestGate]
  cases suite.failure with
  | some error => exact .of_failed rfl
  | none       =>
    dsimp only
    split_ifs
    · exact .of_failed rfl
    · exact .of_failed rfl
    · exact .of_failed rfl
    · exact h

lemma Decided.gated (h : pr.Decided) (gates : Gates) (preHead : String) :
    (pr.gated w d gates preHead).Decided := by
  have htest : (if d.testGate = true ∧ pr.status = .ok then
      runTestGate w.repr pr gates.suite (d.tests.getD []) true else pr).Decided := by
    split_ifs
    · exact h.tested _ _ _ _
    · exact h
  have hprefix := (htest.enforce gates.deploy).enforceCommitPrefix (gates.commitPrefix preHead)
  rw [PhaseResult.gated]
  generalize (if d.testGate = true ∧ pr.status = .ok then
      runTestGate w.repr pr gates.suite (d.tests.getD []) true else pr) = tested at hprefix
  split
  · exact hprefix.enforce _
  · exact hprefix

lemma Decided.committed (h : pr.Decided) (gates : Gates) : (pr.committed w gates).Decided := by
  rw [PhaseResult.committed]
  by_cases hkind : pr.kind = "test"
  · rw [if_pos hkind]
    split_ifs <;> exact h
  rw [if_neg hkind]
  by_cases hcommit : w.commit ∧ pr.status = .ok
  · rw [if_pos hcommit]
    cases gates.commit with
    | ok hash       => exact h
    | error skipped => exact .of_failed rfl
  · rw [if_neg hcommit]
    exact h

lemma Decided.timed (h : pr.Decided) (timedOut : Bool) : (pr.timed timedOut).Decided := by
  rw [PhaseResult.timed]
  split_ifs
  · exact .of_failed rfl
  · exact h

lemma Decided.totalled (h : pr.Decided) (rows : List AttemptRow) (includeLast : Bool) :
    (applyAttemptTotals pr rows includeLast).Decided := by
  rw [PhaseResult.Decided, (applyAttemptTotals_status pr rows includeLast).1]
  exact h

end PhaseResult

lemma attemptLoop_decided {invocation : ℕ → Invocation} {seeded left attemptNo : ℕ}
    {model : String} {rows : List AttemptRow} (h : pr.Decided) :
    (attemptLoop w d seeded executions invocation left attemptNo model pr rows).record.Decided := by
  induction left generalizing attemptNo model pr rows with
  | zero =>
    rw [attemptLoop]
    split
    · exact h
    · dsimp only
      split
      · exact h
      · exact .of_failed rfl
      · exact h
  | succ left ih =>
    rw [attemptLoop]
    split
    · exact h
    · dsimp only
      split
      · exact h
      · split
        · rename_i hleft _
          cases hleft
          exact ih (.of_failed rfl)
        · exact .of_failed rfl
      · split
        · rename_i hleft _
          cases hleft
          exact ih h
        · exact h

lemma tryAgent_decided {scene : AgentScene} (h : pr.Decided) :
    (tryAgent w d seed executions scene pr l).record.Decided := by
  rw [tryAgent]
  split
  · exact h
  · rw [tryAdmitted]
    split
    · exact h
    · dsimp only
      split
      · exact attemptLoop_decided h
      · exact (attemptLoop_decided h).totalled _ _
      · split
        · exact attemptLoop_decided h
        · refine PhaseResult.Decided.totalled ?_ _ _
          split_ifs
          · exact attemptLoop_decided h
          · exact .of_failed rfl

lemma Trial.handled_decided {trial : Trial} (h : trial.record.Decided)
    (hpr : trial.handled = some pr) : pr.Decided := by
  rw [Trial.handled] at hpr
  cases hraised : trial.raised with
  | none   =>
    rw [hraised] at hpr
    cases hpr
    exact h
  | some e =>
    rw [hraised] at hpr
    obtain ⟨rows, -, rfl⟩ := Option.map_eq_some_iff.mp hpr
    refine PhaseResult.Decided.totalled ?_ _ _
    exact .of_failed rfl

lemma beforeTreeGate_decided (hkind : d.kind ≠ "test")
    (h : beforeTreeGate w d seed executions scene l = some (pr, preHead)) : pr.Decided := by
  obtain ⟨handled, hhandled, h⟩ := Option.bind_eq_some_iff.mp h
  obtain ⟨head, -, heq⟩ := Option.map_eq_some_iff.mp h
  cases heq
  rw [tryPhase, if_neg hkind] at hhandled
  have hstart : ({ phase := d.name, kind := d.kind } : PhaseResult).Decided :=
    show PhaseStatus.ok ≠ .awaiting by decide
  have hdecided := Trial.handled_decided (tryAgent_decided hstart) hhandled
  exact ((hdecided.gated _ _).committed _).timed _

lemma executePhase_eq_enforce (w : Settings) (seed : List AttemptRow) (executions : ℕ)
    (scene : Scene) (l : Locals) (hkind : d.kind ≠ "test") :
    (executePhase w d seed executions scene l).map Executed.record =
      (beforeTreeGate w d seed executions scene l).map fun reached =>
        reached.1.enforce (scene.gates.tree reached.2) := by
  rw [executePhase, beforeTreeGate]
  generalize tryPhase w d seed executions scene { phase := d.name, kind := d.kind } l = trial
  cases trial.handled with
  | none    => rfl
  | some pr =>
    simp only [Option.bind_some, afterTry, if_neg hkind, Option.map_map]
    rfl

namespace LoopState

lemma executing_eq_some : s.executing = some d ↔ s.Executes d := by
  rw [executing, Option.filter_eq_some_iff]
  simp only [Executes, Bool.not_eq_true, Bool.decide_and, Bool.and_eq_true, decide_eq_true_eq]
  tauto

lemma dueName_eq (hexecutes : s.Executes d) : s.dueName = d.name := by
  rw [dueName, hexecutes.2.1]
  rfl

lemma gating_eq_some : s.gating k m = some (d, pr, preHead) ↔
    s.Executes d ∧ d.kind ≠ "test" ∧
      beforeTreeGate k.settings d (s.priorInvocations d.name) (s.executionCount d.name)
        (m.sceneOf k d.name) s.locals = some (pr, preHead) := by
  simp only [gating, Option.bind_eq_some_iff, Option.map_eq_some_iff, Option.filter_eq_some_iff,
    executing_eq_some, decide_eq_true_eq, Prod.mk.injEq]
  constructor
  · rintro ⟨d', ⟨hexecutes, hkind⟩, reached, hreached, rfl, rfl⟩
    exact ⟨hexecutes, hkind, hreached⟩
  · rintro ⟨hexecutes, hkind, hreached⟩
    exact ⟨d, ⟨hexecutes, hkind⟩, _, hreached, rfl, rfl⟩

lemma of_mem_emits {emission : Emission} (h : emission ∈ s.emits k m) :
    ∃ d pr preHead, s.gating k m = some (d, pr, preHead) ∧ pr.status = .ok ∧
      emission.phase = pr.phase := by
  rw [emits] at h
  cases hgating : s.gating k m with
  | none         =>
    rw [hgating] at h
    exact absurd h List.not_mem_nil
  | some reached =>
    obtain ⟨d, pr, preHead⟩ := reached
    rw [hgating] at h
    simp only [emissions] at h
    split_ifs at h with hemits hcommit hreport
    · refine ⟨d, pr, preHead, rfl, hemits.2.2, ?_⟩
      rcases List.mem_cons.mp h with rfl | h
      · rfl
      · rw [List.mem_singleton.mp h]
        rfl
    · refine ⟨d, pr, preHead, rfl, hemits.2.2, ?_⟩
      rw [List.mem_singleton.mp h]
      rfl
    · refine ⟨d, pr, preHead, rfl, hemits.2.2, ?_⟩
      rw [List.mem_singleton.mp h]
      rfl
    · exact absurd h List.not_mem_nil
    · exact absurd h List.not_mem_nil

lemma emits_eq_nil (h : ∀ d, ¬ s.Executes d) : s.emits k m = [] := by
  rw [List.eq_nil_iff_forall_not_mem]
  intro emission hemission
  obtain ⟨d, pr, preHead, hgating, -⟩ := of_mem_emits hemission
  exact h d (gating_eq_some.mp hgating).1

lemma mem_records_of_retain {name reason : String} {record : PhaseResult}
    (h : record ∈ (s.retainAndRemovePhaseRecord name reason).records) : record ∈ s.records := by
  rcases s.retain_cases name reason with ⟨-, heq⟩ | ⟨found, rest, rows, hpop, heq⟩
  · rwa [heq] at h
  · rw [heq] at h
    obtain ⟨before, later, hrecords, rfl, -⟩ := popRecord_eq_some hpop
    rw [hrecords]
    rcases List.mem_append.mp h with h | h
    · exact List.mem_append_left _ h
    · exact List.mem_append_right _ (List.mem_cons_of_mem _ h)

lemma mem_records_of_rewind {target : ℕ} {producer : PhaseDef} {record : PhaseResult}
    (h : record ∈ (s.rewind d pr target producer).records) : record ∈ s.records := by
  simp only [rewind] at h
  split at h
  · have hkept := mem_records_of_retain (mem_records_of_retain h)
    exact hkept
  · have hkept := mem_records_of_retain h
    exact hkept

lemma Concluded.mem_records {index : ℕ} {record : PhaseResult}
    (h : Concluded w s index d pr t) (hrecord : record ∈ t.records) :
    record ∈ s.records ∨ record = pr ∨ record = { pr with status := .awaiting } := by
  have hlast {last : PhaseResult} (hmem : record ∈ s.records ++ [last]) :
      record ∈ s.records ∨ record = last := by
    simpa using hmem
  cases h with
  | checkpoint => exact (hlast hrecord).imp_right Or.inr
  | next       => exact (hlast hrecord).imp_right Or.inl
  | stopped    => exact (hlast hrecord).imp_right Or.inl
  | rewound    => exact (hlast (mem_records_of_rewind hrecord)).imp_right Or.inl

lemma Concluded.events {index : ℕ} (h : Concluded w s index d pr t)
    (hfailed : pr.status = .failed) :
    ∃ later, t.events = s.events ++ .executed d.name .failed :: later := by
  cases h with
  | checkpoint _ _ hok =>
    rw [hok] at hfailed
    cases hfailed
  | next               => exact ⟨[], by rw [hfailed]⟩
  | stopped            => exact ⟨[], by rw [hfailed]⟩
  | rewound            =>
    rw [rewind_events, hfailed, List.append_assoc]
    exact ⟨_, rfl⟩

end LoopState

/-! ### Runs -/

namespace Emitted

/-- No phase that has emitted something is recorded as failed. -/
def InOrder (r : Emitted) : Prop :=
  ∀ emission ∈ r.emitted, ∀ record ∈ r.loop.records, record.phase = emission.phase →
    record.status = .ok ∨ record.status = .awaiting

/-- The turn does not fail a phase that emits, or one that bears its name: a phase that emits does
not end on an unapproved discarded tree, no record of its name has failed, and a phase that has
emitted is neither executed again and fails nor refused its expansion. -/
structure Clean (k : Emitter) (r : Emitted) (m : Meeting) : Prop where
  tree : ∀ d pr preHead, r.loop.gating k m = some (d, pr, preHead) → r.loop.emits k m ≠ [] →
    ¬ m.evidence.Relabels k.host d.name preHead
  first : ∀ emission ∈ r.loop.emits k m, ∀ record ∈ r.loop.records,
    record.phase = emission.phase → record.status ≠ .failed
  again : ∀ emission ∈ r.emitted, ∀ d e, r.loop.Executes d → d.name = emission.phase →
    executePhase k.settings d (r.loop.priorInvocations d.name) (r.loop.executionCount d.name)
      (m.sceneOf k d.name) r.loop.locals = some e → e.record.status ≠ .failed
  expansion : ∀ emission ∈ r.emitted, ∀ d message, r.loop.phases[r.loop.index]? = some d →
    d.name = emission.phase →
    expandPlanPhases k.settings r.loop.phases m.scene.plan ≠ .error message

/-- The phase of the turn ends failed, and the gate on its record has the tree. -/
def FailsOnTree (k : Emitter) (r : Emitted) (m : Meeting) (d : PhaseDef) (preHead : String) :
    Prop :=
  ∃ gate e t, relabelGate k.host d.name preHead m.evidence = some gate ∧
    gate.reason = "RELABEL" ∧ gate.phaseTree = m.evidence.phaseTree ∧
    gate.branch = m.evidence.branch ∧ m.evidence.IsDiscarded k.host gate.matchingDiscardedTree ∧
    executePhase k.settings d (r.loop.priorInvocations d.name) (r.loop.executionCount d.name)
      (m.sceneOf k d.name) r.loop.locals = some e ∧ e.record.status = .failed ∧
    r.turn k m = some t ∧
    ∃ calls later, t.loop.events = r.loop.events ++ calls ++ .executed d.name .failed :: later

lemma turn_eq_some {t : Emitted} : r.turn k m = some t ↔
    r.loop.turn k.settings (m.sceneOf k r.loop.dueName) = some t.loop ∧
      t.emitted = r.emitted ++ r.loop.emits k m := by
  rw [turn, Option.map_eq_some_iff]
  constructor
  · rintro ⟨loop, hloop, rfl⟩
    exact ⟨hloop, rfl⟩
  · rintro ⟨hloop, hemitted⟩
    exact ⟨t.loop, hloop, by rw [← hemitted]⟩

end Emitted

lemma RelabelGate.message_not_verification (gate : RelabelGate) (host : Host)
    (specName phaseName : String) :
    startsWith (gate.message host specName phaseName) "TEST_GATE:" = false := by
  have hhead (rest : String) : startsWith ("RELABEL — phase '" ++ rest) "TEST_GATE:" = false := by
    rw [startsWith, String.toList_append]
    generalize rest.toList = chars
    rfl
  exact hhead _

lemma executePhase_of_relabels (hgating : s.gating k m = some (d, pr, preHead))
    (hrelabels : m.evidence.Relabels k.host d.name preHead) :
    ∃ gate e, relabelGate k.host d.name preHead m.evidence = some gate ∧
      gate.reason = "RELABEL" ∧ gate.phaseTree = m.evidence.phaseTree ∧
      gate.branch = m.evidence.branch ∧ m.evidence.IsDiscarded k.host gate.matchingDiscardedTree ∧
      executePhase k.settings d (s.priorInvocations d.name) (s.executionCount d.name)
        (m.sceneOf k d.name) s.locals = some e ∧
      e.record = pr.refuse (gate.message k.host k.specName d.name) ∧ e.record.status = .failed := by
  obtain ⟨-, hkind, hreached⟩ := LoopState.gating_eq_some.mp hgating
  obtain ⟨gate, hgate, hreason, htree, hbranch, hdiscarded, hrefusal⟩ :=
    relabelGate_of_relabels k.specName hrelabels
  have hrecord := executePhase_eq_enforce k.settings (s.priorInvocations d.name)
    (s.executionCount d.name) (m.sceneOf k d.name) s.locals hkind
  rw [hreached, Option.map_some] at hrecord
  obtain ⟨e, he, hrecord⟩ := Option.map_eq_some_iff.mp hrecord
  have hrefused : e.record = pr.refuse (gate.message k.host k.specName d.name) := by
    rw [hrecord]
    simp only [Meeting.sceneOf, hrefusal, PhaseResult.enforce, Option.elim_some]
  refine ⟨gate, e, hgate, hreason, htree, hbranch, hdiscarded, he, hrefused, ?_⟩
  have hdecided := beforeTreeGate_decided hkind hreached
  rw [hrefused, PhaseResult.refuse]
  split_ifs with hok
  · rfl
  · cases hstatus : pr.status with
    | ok       => exact absurd hstatus hok
    | failed   => rfl
    | awaiting => exact absurd hstatus hdecided

namespace LoopState

lemma turn_of_executes (hexecutes : s.Executes d) {e : Executed}
    (he : executePhase w d (s.priorInvocations d.name) (s.executionCount d.name) scene s.locals =
      some e) :
    ∃ t, s.turn w scene = some t ∧ Concluded w { s with
      index := s.index + 1
      locals := e.locals
      events := s.events ++ e.calls.map Event.invoked } s.index d e.record t := by
  obtain ⟨hrunning, hphase, hexpands, hskip⟩ := hexecutes
  refine ⟨_, ?_, concluded _ s.index d e.record⟩
  rw [turn, if_neg (by simp [hrunning])]
  simp only [hphase]
  rw [if_neg hexpands, if_neg hskip, he]
  rfl

end LoopState

namespace Emitted

lemma failsOnTree (hgating : r.loop.gating k m = some (d, pr, preHead))
    (hrelabels : m.evidence.Relabels k.host d.name preHead) : r.FailsOnTree k m d preHead := by
  obtain ⟨gate, e, hgate, hreason, htree, hbranch, hdiscarded, he, -, hfailed⟩ :=
    executePhase_of_relabels hgating hrelabels
  have hexecutes := (LoopState.gating_eq_some.mp hgating).1
  obtain ⟨u, hturn, hconcluded⟩ := LoopState.turn_of_executes hexecutes he
  obtain ⟨later, hevents⟩ := hconcluded.events hfailed
  refine ⟨gate, e, ⟨u, r.emitted ++ r.loop.emits k m⟩, hgate, hreason, htree, hbranch, hdiscarded,
    he, hfailed, ?_, e.calls.map Event.invoked, later, hevents⟩
  rw [turn_eq_some, LoopState.dueName_eq hexecutes]
  exact ⟨hturn, rfl⟩

lemma record_of_emits {e : Executed} {emission : Emission} (hclean : r.Clean k m)
    (hemission : emission ∈ r.loop.emits k m) (hexecutes : r.loop.Executes d)
    (he : executePhase k.settings d (r.loop.priorInvocations d.name)
      (r.loop.executionCount d.name) (m.sceneOf k d.name) r.loop.locals = some e) :
    e.record.status = .ok := by
  obtain ⟨d', pr, preHead, hgating, hok, -⟩ := LoopState.of_mem_emits hemission
  obtain ⟨hexecutes', hkind, hreached⟩ := LoopState.gating_eq_some.mp hgating
  have hsame : d' = d := Option.some.inj (hexecutes'.2.1.symm.trans hexecutes.2.1)
  subst hsame
  have hsilent := treeRefusal_eq_none k.specName
    (hclean.tree d' pr preHead hgating (List.ne_nil_of_mem hemission))
  have hrecord := executePhase_eq_enforce k.settings (r.loop.priorInvocations d'.name)
    (r.loop.executionCount d'.name) (m.sceneOf k d'.name) r.loop.locals hkind
  rw [hreached, he, Option.map_some, Option.map_some, Option.some.injEq] at hrecord
  rw [hrecord]
  simp only [Meeting.sceneOf, hsilent, PhaseResult.enforce, Option.elim_none, hok]

lemma InOrder.executed {e : Executed} {u : LoopState} (h : r.InOrder) (hclean : r.Clean k m)
    (hexecutes : r.loop.Executes d)
    (he : executePhase k.settings d (r.loop.priorInvocations d.name)
      (r.loop.executionCount d.name) (m.sceneOf k d.name) r.loop.locals = some e)
    (hconcluded : LoopState.Concluded k.settings { r.loop with
      index := r.loop.index + 1
      locals := e.locals
      events := r.loop.events ++ e.calls.map Event.invoked } r.loop.index d e.record u) :
    ({ loop := u, emitted := r.emitted ++ r.loop.emits k m } : Emitted).InOrder := by
  intro emission hemission record hrecord hphase
  have hname : e.record.phase = d.name := congrArg Prod.fst (executePhase_identity he)
  have hnotFailed : record.status ≠ .failed := by
    intro hfailed
    have hcases : record ∈ r.loop.records ∨ record = e.record := by
      rcases hconcluded.mem_records hrecord with hold | hnew | hawaiting
      · exact Or.inl hold
      · exact Or.inr hnew
      · rw [hawaiting] at hfailed
        cases hfailed
    rcases List.mem_append.mp hemission with hbefore | hnow <;> rcases hcases with hold | rfl
    · have hstatus := h emission hbefore record hold hphase
      rw [hfailed] at hstatus
      exact hstatus.elim nofun nofun
    · exact hclean.again emission hbefore d e hexecutes (hname.symm.trans hphase) he hfailed
    · exact hclean.first emission hnow record hold hphase hfailed
    · rw [record_of_emits hclean hnow hexecutes he] at hfailed
      cases hfailed
  cases hstatus : record.status with
  | ok       => exact Or.inl rfl
  | failed   => exact absurd hstatus hnotFailed
  | awaiting => exact Or.inr rfl

lemma InOrder.turn {t : Emitted} (h : r.InOrder) (hclean : r.Clean k m)
    (hturn : r.turn k m = some t) : t.InOrder := by
  obtain ⟨hloop, hemitted⟩ := turn_eq_some.mp hturn
  have hkept (hnone : ∀ d, ¬ r.loop.Executes d) (hrecords : t.loop.records = r.loop.records) :
      t.InOrder := by
    rw [InOrder, hemitted, LoopState.emits_eq_nil hnone, List.append_nil, hrecords]
    exact h
  generalize hu : t.loop = u at hloop hkept
  cases LoopState.Turned.of_turn hloop with
  | ended hended =>
    refine hkept (fun d hexecutes => ?_) rfl
    rcases hended with hstopped | hlength
    · rw [hexecutes.1] at hstopped
      cases hstopped
    · have hphase := hexecutes.2.1
      rw [List.getElem?_eq_none_iff.mpr hlength] at hphase
      cases hphase
  | refused d message hrunning hphase hexpands hplan =>
    have hnone (d' : PhaseDef) : ¬ r.loop.Executes d' := by
      rintro ⟨-, hphase', hexpands', -⟩
      rw [hphase] at hphase'
      cases hphase'
      exact hexpands' hexpands
    rw [InOrder, hemitted, LoopState.emits_eq_nil hnone, List.append_nil, hu]
    intro emission hemission record hrecord hname
    rcases List.mem_append.mp hrecord with hrecord | hrecord
    · exact h emission hemission record hrecord hname
    · rw [List.mem_singleton.mp hrecord] at hname
      exact absurd hplan (hclean.expansion emission hemission d message hphase hname)
  | expanded d phases hrunning hphase hexpands hplan =>
    refine hkept (fun d' hexecutes => ?_) rfl
    have hphase' := hexecutes.2.1
    rw [hphase] at hphase'
    cases hphase'
    exact hexecutes.2.2.1 hexpands
  | skipped d hrunning hphase hexpands hresume hcompleted =>
    refine hkept (fun d' hexecutes => ?_) rfl
    have hphase' := hexecutes.2.1
    rw [hphase] at hphase'
    cases hphase'
    exact hexecutes.2.2.2 ⟨hresume, hcompleted⟩
  | executed d e hexecutes he =>
    rw [LoopState.dueName_eq hexecutes] at he
    have hexecuted := h.executed hclean hexecutes he (LoopState.concluded _ r.loop.index d e.record)
    rwa [InOrder, hemitted, hu]

lemma InOrder.after {meetings : ℕ → Meeting}
    (hclean : ∀ n r, emittedAfter k s meetings n = some r → r.Clean k (meetings n)) (n : ℕ)
    (hn : emittedAfter k s meetings n = some r) : r.InOrder := by
  induction n generalizing r with
  | zero =>
    cases hn
    exact fun emission hemission => absurd hemission List.not_mem_nil
  | succ n ih =>
    obtain ⟨before, hbefore, hturn⟩ := Option.bind_eq_some_iff.mp hn
    exact (ih hbefore).turn (hclean n before hbefore) hturn

lemma not_inOrder_of_relabels {t : Emitted} (hgating : r.loop.gating k m = some (d, pr, preHead))
    (hrelabels : m.evidence.Relabels k.host d.name preHead) (hemits : r.loop.emits k m ≠ [])
    (hturn : r.turn k m = some t) : ¬ t.InOrder := by
  obtain ⟨emission, hemission⟩ := List.exists_mem_of_ne_nil _ hemits
  obtain ⟨d', pr', preHead', hgating', hok, hphase⟩ := LoopState.of_mem_emits hemission
  rw [hgating] at hgating'
  cases hgating'
  obtain ⟨hexecutes, hkind, -⟩ := LoopState.gating_eq_some.mp hgating
  obtain ⟨gate, e, -, -, -, -, -, he, hrecord, hfailed⟩ :=
    executePhase_of_relabels hgating hrelabels
  obtain ⟨hloop, hemitted⟩ := turn_eq_some.mp hturn
  rw [LoopState.dueName_eq hexecutes] at hloop
  obtain ⟨u, hu, hconcluded⟩ := LoopState.turn_of_executes hexecutes he
  have heq : t.loop = u := Option.some.inj (hloop.symm.trans hu)
  have herror : e.record.error = gate.message k.host k.specName d.name := by
    rw [hrecord, PhaseResult.refuse, if_pos hok]
  have hnot : verificationFailure e.record d.kind = false := by
    rw [verificationFailure, herror, gate.message_not_verification]
    simp [hkind]
  have hmem : e.record ∈ t.loop.records := by
    rw [heq]
    cases hconcluded with
    | checkpoint _ _ hstatus =>
      rw [hfailed] at hstatus
      cases hstatus
    | next    => exact List.mem_append_right _ (List.mem_singleton_self _)
    | stopped => exact List.mem_append_right _ (List.mem_singleton_self _)
    | rewound _ _ _ _ hverification =>
      rw [hnot] at hverification
      cases hverification
  intro hinOrder
  have hname : e.record.phase = emission.phase := by
    rw [hrecord, hphase, PhaseResult.refuse, if_pos hok]
  have hstatus := hinOrder emission (hemitted ▸ List.mem_append_right _ hemission) e.record hmem
    hname
  rw [hfailed] at hstatus
  rcases hstatus with hstatus | hstatus
  · cases hstatus
  · cases hstatus

end Emitted

end AgenticDynamics.Execution
