import AgenticDynamics.Library.Lines
import AgenticDynamics.Control.SafeActions

/-!
# Offers and their acceptance

A packet offers actions; the approval command, the promotion claim and the transition graph accept
or refuse them. They agree exactly where the runs that stopped, and those that may be promoted, name
candidates that can be approved and claimed.
-/

namespace AgenticDynamics.Control

open Python Script StableSort

namespace ControlTables

/-! ### What is offered -/

variable {s t : ControlTables} {run : RunRecord} {gateId : String} {e : SafeActionEntry}

lemma mem_activeRuns : run ∈ s.activeRuns ↔ run ∈ s.db.runs ∧ run.state ∉ terminalRunStates := by
  rw [activeRuns, List.mem_filter, decide_eq_true_eq]

lemma mem_safeActions : e ∈ s.safeActions ↔
    (∃ run ∈ s.db.runs, run.state = .awaitingApproval ∧ ∃ gateId ∈ s.runGateContext run true,
      e = ⟨.approve, run.runId, gateId, run.candidateSha⟩) ∨
    (∃ run ∈ s.db.runs, run.state = .promotable ∧
      e = ⟨.promote, run.runId, "", run.candidateSha⟩) ∨
    ∃ run ∈ s.db.runs, .cancelled ∈ allowedTransitions run.state ∧
      e = ⟨.cancel, run.runId, "", run.candidateSha⟩ := by
  have hpromoting : RunState.promoting ∈ allowedTransitions .promotable := by decide
  rw [safeActions, deriveSafeActions, if_pos hpromoting, mem_sortBy, List.mem_append,
    List.mem_append, or_assoc]
  refine or_congr ?_ (or_congr ?_ ?_)
  · simp only [List.mem_map, awaitingApprovalEntries, mem_sortBy, List.mem_flatMap, List.mem_filter,
      mem_activeRuns, decide_eq_true_eq]
    constructor
    · rintro ⟨_, ⟨run, ⟨⟨hrun, -⟩, hstate⟩, gateId, hgate, rfl⟩, rfl⟩
      exact ⟨run, hrun, hstate, gateId, hgate, rfl⟩
    · rintro ⟨run, hrun, hstate, gateId, hgate, rfl⟩
      exact ⟨_, ⟨run, ⟨⟨hrun, by rw [hstate]; decide⟩, hstate⟩, gateId, hgate, rfl⟩, rfl⟩
  · simp only [List.mem_map, List.mem_filter, mem_activeRuns, decide_eq_true_eq]
    constructor
    · rintro ⟨run, ⟨⟨hrun, -⟩, hstate⟩, rfl⟩
      exact ⟨run, hrun, hstate, rfl⟩
    · rintro ⟨run, hrun, hstate, rfl⟩
      exact ⟨run, ⟨⟨hrun, by rw [hstate]; decide⟩, hstate⟩, rfl⟩
  · simp only [List.mem_flatMap, List.mem_map, List.mem_filter, mem_activeRuns, decide_eq_true_eq]
    constructor
    · rintro ⟨state, ⟨-, hallowed⟩, run, ⟨⟨hrun, -⟩, rfl⟩, rfl⟩
      exact ⟨run, hrun, hallowed, rfl⟩
    · rintro ⟨run, hrun, hallowed, rfl⟩
      exact ⟨run.state, ⟨RunState.mem_members _, hallowed⟩, run,
        ⟨⟨hrun, not_terminal_of_allowed _ _ hallowed⟩, rfl⟩, rfl⟩

lemma Sound.run_unique (hs : s.Sound) {r r' : RunRecord} (hr : r ∈ s.db.runs)
    (hr' : r' ∈ s.db.runs) (hid : r.runId = r'.runId) : r = r' :=
  List.inj_on_of_nodup_map hs.audited.keys hr hr' hid

lemma Sound.nodup_safeActions (hs : s.Sound) : s.safeActions.Nodup := by
  have hruns : s.db.runs.Nodup := List.Nodup.of_map _ hs.audited.keys
  have hactive : s.activeRuns.Nodup := hruns.filter _
  have hunique : ∀ r ∈ s.activeRuns, ∀ r' ∈ s.activeRuns, r.runId = r'.runId → r = r' :=
    fun r hr r' hr' => hs.run_unique (mem_activeRuns.mp hr).1 (mem_activeRuns.mp hr').1
  have hmap : ∀ (p : RunRecord → Bool) (action : SafeAction),
      ((s.activeRuns.filter p).map fun run =>
        (⟨action, run.runId, "", run.candidateSha⟩ : SafeActionEntry)).Nodup := by
    intro p action
    refine (hactive.filter p).map_on fun r hr r' hr' heq => ?_
    simp only [SafeActionEntry.mk.injEq] at heq
    exact hunique r (List.mem_of_mem_filter hr) r' (List.mem_of_mem_filter hr') heq.2.1
  have hpair : ∀ runs : List RunRecord, runs.Nodup → (∀ r ∈ runs, r ∈ s.activeRuns) →
      runs.Pairwise fun r r' => r.runId ≠ r'.runId := by
    intro runs hnodup hsub
    refine (List.pairwise_iff_forall_sublist.mpr fun {r r'} hsublist hid => ?_)
    have hne : r ≠ r' := by
      have hpair := hnodup.sublist hsublist
      simpa using hpair
    have hmem := hsublist.subset
    exact hne (hunique r (hsub r (hmem (by simp))) r' (hsub r' (hmem (by simp))) hid)
  rw [safeActions, deriveSafeActions]
  refine ((sortBy_perm _ _).nodup_iff).mpr ?_
  rw [List.nodup_append', List.nodup_append']
  refine ⟨⟨?_, ?_, ?_⟩, ?_, ?_⟩
  · rw [awaitingApprovalEntries, ((sortBy_perm _ _).map _).nodup_iff, List.map_flatMap,
      List.nodup_flatMap]
    refine ⟨fun run _ => ?_, (hpair _ (hactive.filter _) fun r hr =>
      List.mem_of_mem_filter hr).imp fun {r r'} hne => ?_⟩
    · rw [List.map_map]
      refine (nodup_runGateContext true).map fun g g' heq => ?_
      simpa using heq
    · intro x hx hx'
      simp only [List.mem_map] at hx hx'
      obtain ⟨_, ⟨g, -, rfl⟩, rfl⟩ := hx
      obtain ⟨_, ⟨g', -, rfl⟩, heq⟩ := hx'
      simp only [SafeActionEntry.mk.injEq] at heq
      exact hne heq.2.1.symm
  · split_ifs
    · exact hmap _ _
    · exact List.nodup_nil
  · intro x hx hx'
    obtain ⟨_, -, rfl⟩ := List.mem_map.mp hx
    split_ifs at hx'
    · simp at hx'
    · cases hx'
  · rw [List.nodup_flatMap]
    refine ⟨fun state _ => hmap _ _, ?_⟩
    have hmembers : (RunState.members.filter fun state =>
        decide (.cancelled ∈ allowedTransitions state)).Nodup := by decide
    refine hmembers.imp fun {state state'} hne x hx hx' => ?_
    simp only [List.mem_map, List.mem_filter, decide_eq_true_eq] at hx hx'
    obtain ⟨r, ⟨hr, rfl⟩, rfl⟩ := hx
    obtain ⟨r', ⟨hr', rfl⟩, heq⟩ := hx'
    simp only [SafeActionEntry.mk.injEq, true_and] at heq
    exact hne (by rw [hunique r' hr' r hr heq.1])
  · intro x hx hx'
    simp only [List.mem_flatMap, List.mem_map] at hx'
    obtain ⟨_, -, _, -, rfl⟩ := hx'
    rcases List.mem_append.mp hx with hx | hx
    · simp at hx
    · split_ifs at hx
      · simp at hx
      · cases hx

/-! ### What is pending -/

/-- A signature clears the gate of the run's own candidate. -/
def Signed (run : RunRecord) (gateId : String) (s : ControlTables) : Prop :=
  ∃ a ∈ s.approvalRows, a.runId = run.runId ∧ a.gateId = gateId ∧
    a.candidateSha = run.candidateSha ∧ (a.purpose = "" ∨ a.purpose = purposeCheckpoint)

/-- The operator still owes a decision: about a gate of the run's own candidate, or, when its
candidate has no gate, about the run itself. -/
def PendingDecision (run : RunRecord) (gateId : String) (s : ControlTables) : Prop :=
  ¬ s.Signed run gateId ∧
    ((∃ g ∈ s.gateRows, g.runId = run.runId ∧ g.candidateSha = run.candidateSha ∧
        g.gateId = gateId) ∨
      (gateId = "" ∧ ∀ g ∈ s.gateRows, g.runId = run.runId → g.candidateSha ≠ run.candidateSha))

lemma approved_iff (hname : run.runId ≠ "") :
    s.Approved run gateId run.candidateSha ↔ s.Signed run gateId := by
  simp only [Approved, Signed, approvals, List.mem_filter, decide_eq_true_eq]
  constructor
  · rintro ⟨a, ⟨ha, hrun⟩, hpurpose, hgate, hsha⟩
    exact ⟨a, ha, hrun.resolve_left hname, hgate, hsha, hpurpose⟩
  · rintro ⟨a, ha, hrun, hgate, hsha, hpurpose⟩
    exact ⟨a, ⟨ha, Or.inr hrun⟩, hpurpose, hgate, hsha⟩

lemma pending_iff (hname : run.runId ≠ "") (hsha : run.candidateSha ≠ "") :
    gateId ∈ s.runGateContext run true ↔ s.PendingDecision run gateId := by
  have hgates : ∀ g, g ∈ s.gateResults run.runId run.candidateSha ↔
      g ∈ s.gateRows ∧ g.runId = run.runId ∧ g.candidateSha = run.candidateSha := by
    intro g
    simp [gateResults, hname, hsha]
  rw [mem_runGateContext, PendingDecision]
  constructor
  · rintro (⟨g, hg, hpending, rfl⟩ | ⟨hnone, hpending, rfl⟩)
    · obtain ⟨hrow, hrun, hsame⟩ := (hgates g).mp hg
      rw [hsame, approved_iff hname] at hpending
      exact ⟨hpending, Or.inl ⟨g, hrow, hrun, hsame, rfl⟩⟩
    · rw [approved_iff hname] at hpending
      refine ⟨hpending, Or.inr ⟨rfl, fun g hg hrun hsame => ?_⟩⟩
      have hmem := (hgates g).mpr ⟨hg, hrun, hsame⟩
      rw [hnone] at hmem
      cases hmem
  · rintro ⟨hpending, ⟨g, hg, hrun, hsame, rfl⟩ | ⟨rfl, hnone⟩⟩
    · refine Or.inl ⟨g, (hgates g).mpr ⟨hg, hrun, hsame⟩, ?_, rfl⟩
      rwa [hsame, approved_iff hname]
    · refine Or.inr ⟨?_, by rwa [approved_iff hname], rfl⟩
      refine List.eq_nil_iff_forall_not_mem.mpr fun g hg => ?_
      obtain ⟨hrow, hrun, hsame⟩ := (hgates g).mp hg
      exact hnone g hrow hrun hsame

lemma Sound.pending_of_unnamed (hs : s.Sound) (hsha : run.candidateSha = "") :
    s.PendingDecision run "" := by
  refine ⟨?_, Or.inr ⟨rfl, fun g hg _ hsame => (hs.gates g hg).1 (hsame.trans hsha)⟩⟩
  rintro ⟨a, ha, -, -, hsame, -⟩
  exact (hs.approvals a ha).1 (hsame.trans hsha)

/-! ### Recording an approval -/

variable {r : RecordApproval} {hex clock : String} {row : ApprovalRecord}

lemma recordApproval_eq_ok (h : s.recordApproval r hex clock = .ok (t, row)) :
    t = { s with approvalRows := s.approvalRows ++ [row] } ∧ row.runId = r.runId ∧
      row.gateId = r.gateId ∧ row.candidateSha = strip r.candidateSha ∧ row.purpose = r.purpose := by
  rw [recordApproval] at h
  obtain ⟨sha, hsha, h⟩ := bind_eq_ok.mp h
  obtain ⟨who, -, h⟩ := bind_eq_ok.mp h
  dsimp only at h
  split_ifs at h
  cases h
  exact ⟨rfl, rfl, rfl, (require_eq_ok hsha).1, rfl⟩

lemma recordApproval_ok (hsha : strip r.candidateSha ≠ "") (hwho : strip r.operator ≠ "")
    (hrun : (s.db.getRun r.runId).isSome)
    (hid : ∀ b ∈ s.approvalRows, b.approvalId ≠ orElse r.approvalId ("apr-" ++ hex)) :
    ∃ t row, s.recordApproval r hex clock = .ok (t, row) := by
  have hfresh : ¬ (s.approvalRows.any fun b =>
      b.approvalId = orElse r.approvalId ("apr-" ++ hex)) = true := by
    simpa using hid
  simp only [recordApproval, require, if_neg hsha, if_neg hwho]
  simp only [Bind.bind, Except.bind]
  rw [if_neg (by simp [Option.isSome_iff_ne_none.mp hrun]), if_neg hfresh]
  exact ⟨_, _, rfl⟩

lemma pending_recorded (h : s.recordApproval r hex clock = .ok (t, row))
    (hpurpose : r.purpose = purposeCheckpoint) (run' : RunRecord) (gateId' : String) :
    t.PendingDecision run' gateId' ↔ s.PendingDecision run' gateId' ∧
      ¬ (r.runId = run'.runId ∧ r.gateId = gateId' ∧ strip r.candidateSha = run'.candidateSha) := by
  obtain ⟨rfl, hrun, hgate, hsha, hrow⟩ := recordApproval_eq_ok h
  have hsigned : ({ s with approvalRows := s.approvalRows ++ [row] } : ControlTables).Signed run'
      gateId' ↔ s.Signed run' gateId' ∨
        (r.runId = run'.runId ∧ r.gateId = gateId' ∧ strip r.candidateSha = run'.candidateSha) := by
    constructor
    · rintro ⟨a, ha, hmatch⟩
      rcases List.mem_append.mp ha with ha | ha
      · exact Or.inl ⟨a, ha, hmatch⟩
      · rw [List.mem_singleton.mp ha, hrun, hgate, hsha] at hmatch
        exact Or.inr ⟨hmatch.1, hmatch.2.1, hmatch.2.2.1⟩
    · rintro (⟨a, ha, hmatch⟩ | ⟨hid, hsame, hcandidate⟩)
      · exact ⟨a, List.mem_append_left _ ha, hmatch⟩
      · exact ⟨row, List.mem_append_right _ (List.mem_singleton.mpr rfl), hrun.trans hid,
          hgate.trans hsame, hsha.trans hcandidate, Or.inr (hrow.trans hpurpose)⟩
  rw [PendingDecision, PendingDecision, hsigned, not_or]
  exact ⟨fun ⟨⟨hold, hnew⟩, hrest⟩ => ⟨⟨hold, hrest⟩, hnew⟩,
    fun ⟨⟨hold, hrest⟩, hnew⟩ => ⟨⟨hold, hnew⟩, hrest⟩⟩

end ControlTables

/-! ### Acceptance -/

variable {host : Host} {a : ApprovalArgs} {s : ControlTables} {run : RunRecord}

lemma checkIdentity_ok (hrun : s.db.getRun a.runId = some run)
    (hstate : run.state = .awaitingApproval) (hspec : a.spec = run.specName)
    (hsha : a.candidateSha = run.candidateSha) (hstrip : strip run.candidateSha = run.candidateSha)
    (hne : run.candidateSha ≠ "") (hgate : a.gateId ∈ s.runGateContext run true) :
    checkIdentity host a s = .ok () := by
  rw [checkIdentity]
  simp only [hrun, hstrip, hsha, startsWith_self, hspec, hstate]
  rw [if_neg (by simp), if_neg (by simp), if_neg hne, if_neg (by simp),
    if_neg (List.ne_nil_of_mem hgate), if_neg (by simpa using hgate)]

/-- Every offer is accepted: an approve entry passes the checks of the approval command for the
run's own spec, and recording that approval takes exactly that entry away; a promote entry is
claimed; a cancel entry is a transition the database makes; and what is pending for a stopped run
is offered once. -/
structure OffersAccepted (host : Host) (s : ControlTables) : Prop where
  approve : ∀ e ∈ s.safeActions, e.action = .approve → ∃ run, s.db.getRun e.runId = some run ∧
    ∀ a : ApprovalArgs, a.runId = e.runId → a.gateId = e.gateId →
      a.candidateSha = e.candidateSha → a.spec = run.specName →
      (a.operator ∉ placeholderOperators → checkArguments host a = .ok ()) ∧
      checkIdentity host a s = .ok () ∧
      ∀ artifact artifactCommit today hex clock, strip a.operator ≠ "" →
        (∀ b ∈ s.approvalRows, b.approvalId ≠ "apr-" ++ hex) →
        ∃ t row, s.recordApproval (a.approval host artifact artifactCommit today) hex clock =
            .ok (t, row) ∧ ∀ x, x ∈ t.safeActions ↔ x ∈ s.safeActions ∧ x ≠ e
  promote : ∀ e ∈ s.safeActions, e.action = .promote → ∀ (o : Oracle DbError) (base : String),
    (∀ n, o.fault n = none) →
    ∃ t claim, claimRun host none o e.runId e.candidateSha base s = .ok (t, claim)
  cancel : ∀ e ∈ s.safeActions, e.action = .cancel → ∀ (o : Oracle DbError) (a : TransitionRun),
    (∀ n, o.fault n = none) → a.runId = e.runId → a.newState = .member .cancelled →
    ∃ r t, transitionRun a o { store := s.db } = (.ok r, t) ∧
      ∃ now, Transitioned a .cancelled now s.db t.store
  once : ∀ run ∈ s.db.runs, run.state = .awaitingApproval → ∀ gateId,
    s.PendingDecision run gateId →
    (s.safeActions.filter fun e => e.action = .approve ∧ e.runId = run.runId ∧
      e.gateId = gateId) = [⟨.approve, run.runId, gateId, run.candidateSha⟩]

/-- A stopped run for which something is pending names a candidate of seven or more characters,
without white space around it, other than the placeholder; and the candidate of a promotable run
does not begin with white space unless it is blank. -/
structure CandidatesNamed (s : ControlTables) : Prop where
  stopped : ∀ run ∈ s.db.runs, run.state = .awaitingApproval →
    (∃ gateId, s.PendingDecision run gateId) →
    strip run.candidateSha = run.candidateSha ∧ 7 ≤ run.candidateSha.length ∧
      run.candidateSha ≠ "deadbeef"
  promotable : ∀ run ∈ s.db.runs, run.state = .promotable →
    startsWith run.candidateSha (strip run.candidateSha) = true

lemma ne_empty_of_length {text : String} (h : 7 ≤ text.length) : text ≠ "" := by
  rintro rfl
  simp at h

lemma filter_offers (hs : s.Sound) {e : SafeActionEntry} (he : e ∈ s.safeActions)
    {p : SafeActionEntry → Bool} (hp : ∀ x ∈ s.safeActions, p x = true ↔ x = e) :
    s.safeActions.filter p = [e] := by
  have hperm : (s.safeActions.filter p).Perm [e] := by
    refine (List.perm_ext_iff_of_nodup (hs.nodup_safeActions.filter p)
      (List.nodup_singleton e)).mpr fun x => ?_
    rw [List.mem_filter, List.mem_singleton]
    constructor
    · rintro ⟨hx, hpx⟩
      exact (hp x hx).mp hpx
    · rintro rfl
      exact ⟨he, (hp x he).mpr rfl⟩
  exact List.perm_singleton.mp hperm

lemma exists_fresh_hex (rows : List ApprovalRecord) :
    ∃ hex : String, ∀ b ∈ rows, b.approvalId ≠ "apr-" ++ hex := by
  have hinj : Function.Injective fun hex : String => "apr-" ++ hex := by
    intro hex hex' h
    have hlist := congrArg String.toList h
    simp only [String.toList_append, List.append_cancel_left_eq, String.toList_inj] at hlist
    exact hlist
  have : Infinite String := Infinite.of_injective String.ofList fun _ _ => String.ofList_injective
  obtain ⟨id, hrange, hfresh⟩ := (Set.infinite_range_of_injective hinj).exists_notMem_finset
    (rows.map ApprovalRecord.approvalId).toFinset
  obtain ⟨hex, rfl⟩ := hrange
  refine ⟨hex, fun b hb heq => hfresh ?_⟩
  rw [List.mem_toFinset]
  exact List.mem_map.mpr ⟨b, hb, heq⟩

lemma not_placeholder : "dana" ∉ placeholderOperators := by decide

lemma strip_dana : strip "dana" ≠ "" := by decide +kernel

section Accepted

variable (hs : s.Sound)
include hs

lemma offersAccepted_of_named (hnamed : CandidatesNamed s) : OffersAccepted host s := by
  have hname : ∀ run ∈ s.db.runs, run.runId ≠ "" := hs.named
  have hstopped : ∀ run ∈ s.db.runs, run.state = .awaitingApproval → run.candidateSha ≠ "" := by
    intro run hrun hstate hsha
    obtain ⟨-, hlength, -⟩ := hnamed.stopped run hrun hstate ⟨"", hs.pending_of_unnamed hsha⟩
    exact ne_empty_of_length hlength hsha
  constructor
  case approve =>
    intro e he haction
    rcases ControlTables.mem_safeActions.mp he with
      ⟨run, hrun, hstate, gateId, hgate, rfl⟩ | ⟨run, -, -, rfl⟩ | ⟨run, -, -, rfl⟩
    case inr.inl => cases haction
    case inr.inr => cases haction
    have hget := hs.audited.getRun hrun
    have hsha := hstopped run hrun hstate
    have hpending := (ControlTables.pending_iff (hname run hrun) hsha).mp hgate
    obtain ⟨hstrip, hlength, hreal⟩ := hnamed.stopped run hrun hstate ⟨gateId, hpending⟩
    refine ⟨run, hget, fun a hid hgateId hcandidate hspec => ⟨fun hoperator => ?_, ?_, ?_⟩⟩
    · have hvalid : ¬ (a.candidateSha ∈ ["", "deadbeef"] ∨ a.candidateSha.length < 7) := by
        rw [hcandidate]
        simp only [List.mem_cons, List.not_mem_nil, or_false]
        rintro ((h | h) | h)
        · exact hsha h
        · exact hreal h
        · omega
      rw [checkArguments, if_neg hoperator, if_neg hvalid]
    · exact checkIdentity_ok (by rwa [hid]) hstate hspec hcandidate hstrip hsha (by rwa [hgateId])
    · intro artifact artifactCommit today hex clock hwho hfresh
      obtain ⟨t, row, hrecorded⟩ : ∃ t row,
          s.recordApproval (a.approval host artifact artifactCommit today) hex clock =
            .ok (t, row) := ControlTables.recordApproval_ok
        (by
          show strip a.candidateSha ≠ ""
          rw [hcandidate, hstrip]
          exact hsha) hwho
        (by
          show (s.db.getRun a.runId).isSome = true
          rw [hid, hget]
          rfl) hfresh
      refine ⟨t, row, hrecorded, fun x => ?_⟩
      have hpend := ControlTables.pending_recorded hrecorded rfl
      obtain ⟨htables, -⟩ := ControlTables.recordApproval_eq_ok hrecorded
      have hruns : t.db = s.db := by rw [htables]
      rw [ControlTables.mem_safeActions, ControlTables.mem_safeActions, hruns]
      constructor
      · rintro (⟨r, hr, hr', g, hg, rfl⟩ | ⟨r, hr, hr', rfl⟩ | ⟨r, hr, hr', rfl⟩)
        · rw [ControlTables.pending_iff (hname r hr) (hstopped r hr hr'), hpend] at hg
          refine ⟨Or.inl ⟨r, hr, hr', g, ?_, rfl⟩, fun heq => hg.2 ?_⟩
          · rw [ControlTables.pending_iff (hname r hr) (hstopped r hr hr')]
            exact hg.1
          · simp only [SafeActionEntry.mk.injEq, true_and] at heq
            refine ⟨hid.trans heq.1.symm, hgateId.trans heq.2.1.symm, ?_⟩
            show strip a.candidateSha = r.candidateSha
            rw [hcandidate, heq.2.2]
            exact hstrip
        · exact ⟨Or.inr (Or.inl ⟨r, hr, hr', rfl⟩), by simp⟩
        · exact ⟨Or.inr (Or.inr ⟨r, hr, hr', rfl⟩), by simp⟩
      · rintro ⟨⟨r, hr, hr', g, hg, rfl⟩ | ⟨r, hr, hr', rfl⟩ | ⟨r, hr, hr', rfl⟩, hne⟩
        · refine Or.inl ⟨r, hr, hr', g, ?_, rfl⟩
          rw [ControlTables.pending_iff (hname r hr) (hstopped r hr hr')] at hg ⊢
          refine (hpend r g).mpr ⟨hg, fun hsame => hne ?_⟩
          have hrun' : r = run := hs.run_unique hr hrun (hsame.1.symm.trans hid)
          rw [hrun', ← hsame.2.1]
          show _ = _
          rw [show (a.approval host artifact artifactCommit today).gateId = gateId from hgateId]
        · exact Or.inr (Or.inl ⟨r, hr, hr', rfl⟩)
        · exact Or.inr (Or.inr ⟨r, hr, hr', rfl⟩)
  case promote =>
    intro e he haction o base hquiet
    rcases ControlTables.mem_safeActions.mp he with
      ⟨run, -, -, gateId, -, rfl⟩ | ⟨run, hrun, hstate, rfl⟩ | ⟨run, -, -, rfl⟩
    case inl => cases haction
    case inr.inr => cases haction
    exact (claimRun_promotable hquiet hs.audited (hs.audited.getRun hrun) hstate).mpr
      (hnamed.promotable run hrun hstate)
  case cancel =>
    intro e he haction o a hquiet hid hstate
    rcases ControlTables.mem_safeActions.mp he with
      ⟨run, -, -, gateId, -, rfl⟩ | ⟨run, -, -, rfl⟩ | ⟨run, hrun, hallowed, rfl⟩
    case inl => cases haction
    case inr.inl => cases haction
    have hends := transitionRun_ends (a := a) (o := o) (s := { store := s.db })
      hquiet (show coerceRunState a.newState = .ok .cancelled by rw [hstate]; rfl) rfl hs.audited
    rcases hmove : transitionRun a o { store := s.db } with ⟨e | r, t⟩
    · obtain ⟨-, -, hro | hrefused⟩ := hends.of_error hmove
      · cases hro
      · refine absurd hallowed (hrefused run ?_)
        rw [hid]
        exact hs.audited.getRun hrun
    · exact ⟨r, t, rfl, (hends.of_ok hmove).2⟩
  case once =>
    intro run hrun hstate gateId hpending
    have hgate := (ControlTables.pending_iff (hname run hrun) (hstopped run hrun hstate)).mpr hpending
    refine filter_offers hs (ControlTables.mem_safeActions.mpr
      (Or.inl ⟨run, hrun, hstate, gateId, hgate, rfl⟩)) fun x hx => ?_
    rw [decide_eq_true_eq]
    constructor
    · rintro ⟨haction, hid, hgateId⟩
      rcases ControlTables.mem_safeActions.mp hx with
        ⟨r, hr, -, g, -, rfl⟩ | ⟨r, -, -, rfl⟩ | ⟨r, -, -, rfl⟩
      · rw [hs.run_unique hr hrun hid]
        dsimp only at hgateId
        rw [hgateId]
      · cases haction
      · cases haction
    · rintro rfl
      exact ⟨rfl, rfl, rfl⟩

lemma named_of_offersAccepted (haccepted : OffersAccepted host s) : CandidatesNamed s := by
  constructor
  case stopped =>
    rintro run hrun hstate ⟨gateId, hpending⟩
    have hoffer : (⟨.approve, run.runId, gateId, run.candidateSha⟩ : SafeActionEntry) ∈
        s.safeActions := by
      have hfilter := haccepted.once run hrun hstate gateId hpending
      exact List.mem_of_mem_filter (by rw [hfilter]; exact List.mem_singleton.mpr rfl)
    obtain ⟨run', hget, hact⟩ := haccepted.approve _ hoffer rfl
    obtain rfl : run = run' := by
      have hsame := hs.audited.getRun hrun
      dsimp only at hget
      rw [hget, Option.some.injEq] at hsame
      exact hsame.symm
    obtain ⟨hargs, -, hrecord⟩ := hact
      { runId := run.runId, gateId, candidateSha := run.candidateSha, spec := run.specName
        phase := "", operator := "dana" } rfl rfl rfl rfl
    have hreal := hargs not_placeholder
    rw [checkArguments, if_neg not_placeholder] at hreal
    split_ifs at hreal with hvalid
    simp only [List.mem_cons, List.not_mem_nil, or_false, not_or, not_lt] at hvalid
    refine ⟨?_, hvalid.2, hvalid.1.2⟩
    -- an approval under another name leaves the entry where it is
    by_contra hstrip
    obtain ⟨hex, hfresh⟩ := exists_fresh_hex s.approvalRows
    obtain ⟨t, row, hrecorded, hafter⟩ := hrecord "" "" "" hex "" strip_dana hfresh
    have hname := hs.named run hrun
    have hruns : t.db = s.db := by rw [(ControlTables.recordApproval_eq_ok hrecorded).1]
    have hstill : t.PendingDecision run gateId :=
      (ControlTables.pending_recorded hrecorded rfl run gateId).mpr
        ⟨hpending, fun hsame => hstrip hsame.2.2⟩
    refine ((hafter _).mp (ControlTables.mem_safeActions.mpr
      (Or.inl ⟨run, by rwa [hruns], hstate, gateId, ?_, rfl⟩))).2 rfl
    exact (ControlTables.pending_iff hname hvalid.1.1).mpr hstill
  case promotable =>
    intro run hrun hstate
    have hoffer : (⟨.promote, run.runId, "", run.candidateSha⟩ : SafeActionEntry) ∈
        s.safeActions :=
      ControlTables.mem_safeActions.mpr (Or.inr (Or.inl ⟨run, hrun, hstate, rfl⟩))
    have hquiet : ∀ n, (Oracle.quiet : Oracle DbError).fault n = none := fun _ => rfl
    exact (claimRun_promotable hquiet hs.audited (hs.audited.getRun hrun) hstate).mp
      (haccepted.promote _ hoffer rfl Oracle.quiet "main" hquiet)

end Accepted

/-- In every state the database can be in, what the packet offers is what the control plane accepts
if and only if the runs that stopped and those that may be promoted name candidates that can be
approved and claimed. -/
theorem offers_accepted_iff {host : Host} {s : ControlTables} (h : ControlTables.Reached host s) :
    OffersAccepted host s ↔ CandidatesNamed s :=
  ⟨named_of_offersAccepted h.sound, offersAccepted_of_named h.sound⟩

/-! ### A run that stopped before it had a candidate -/

/-- The calls that bring a run to its checkpoint. -/
def stoppingCalls (candidateSha : String) : List OrchestratorCall :=
  [.call .quiet (.createRun { specName := "nightly", runId := some "run-a", candidateSha
                              state := .member .running }),
    .call .quiet (.transitionRun { runId := "run-a", newState := .member .awaitingApproval })]

def stoppedStore (candidateSha : String) : ControlTables :=
  ⟨(stoppingCalls candidateSha).foldl OrchestratorCall.perform Tables.empty, [], [], emptyJournal⟩

lemma reached_stoppedStore (candidateSha : String) :
    ControlTables.Reached journalHost (stoppedStore candidateSha) :=
  ControlTables.Reached.empty.calls (stoppingCalls candidateSha)

lemma stopped_computed :
    (∃ run ∈ (stoppedStore "").db.runs, run.state = .awaitingApproval ∧ run.candidateSha = "") ∧
    ∀ run ∈ (stoppedStore "abcdef1").db.runs, run.state = .awaitingApproval ∧
      strip run.candidateSha = run.candidateSha ∧ 7 ≤ run.candidateSha.length ∧
      run.candidateSha ≠ "deadbeef" := by
  decide +kernel

/-- The packet offers to approve such a run, and the approval command refuses. -/
theorem unnamed_offer_refused :
    ControlTables.Reached journalHost (stoppedStore "") ∧
      ¬ OffersAccepted journalHost (stoppedStore "") := by
  refine ⟨reached_stoppedStore "", fun haccepted => ?_⟩
  obtain ⟨run, hrun, hstate, hsha⟩ := stopped_computed.1
  have hs := (reached_stoppedStore "").sound
  obtain ⟨-, hlength, -⟩ := (named_of_offersAccepted hs haccepted).stopped run hrun hstate
    ⟨"", hs.pending_of_unnamed hsha⟩
  exact ne_empty_of_length hlength hsha

/-- With a candidate everything that is offered is accepted. -/
theorem named_offer_accepted : OffersAccepted journalHost (stoppedStore "abcdef1") := by
  refine (offers_accepted_iff (reached_stoppedStore "abcdef1")).mpr ⟨?_, ?_⟩
  · intro run hrun _ _
    exact (stopped_computed.2 run hrun).2
  · intro run hrun hstate
    rw [(stopped_computed.2 run hrun).1] at hstate
    cases hstate

end AgenticDynamics.Control
