import AgenticDynamics.Experiment.RunFamilies
import AgenticDynamics.Experiment.RevisionIdentity

/-!
# When a spec is completed

A spec is completed on the evidence of one family: its last run is ok, none of its runs failed, and
their ledgers record every declared phase. What they record are names: a checkpoint that was stopped
at counts, whatever its status.
-/

namespace AgenticDynamics.Experiment.SpecStatus

open Python Loaded

section Completion

variable (host : Host)

/-! ### What a ledger records -/

/-- All phases that the run's expansion generated are recorded. -/
structure Expanded (run : RunSummary) (generated : Finset String) : Prop where
  read : run.generated host = .ok generated
  base : run.basePhase host ≠ ""
  some_phase : generated ≠ ∅
  recorded : generated ⊆ run.executedPhases

/-- The ledger records the phase: by its name, unless an expansion generated that, or as the phase
that an expansion replaced. -/
def Records (run : RunSummary) (phase : String) : Prop :=
  (phase ∈ run.executedPhases ∧ ∀ generated, Expanded host run generated → phase ∉ generated) ∨
    (∃ generated, Expanded host run generated) ∧ phase = run.basePhase host

def Readable (run : RunSummary) : Prop := ∃ generated, run.generated host = .ok generated

lemma mem_executedWithExpansions {run : RunSummary} {names : Finset String}
    (h : executedWithExpansions host run = .ok names) (phase : String) :
    phase ∈ names ↔ Records host run phase := by
  simp only [executedWithExpansions, bind_eq_ok, Except.ok.injEq] at h
  obtain ⟨generated, hread, rfl⟩ := h
  have honly {generated' : Finset String} (h : Expanded host run generated') :
      generated' = generated := Except.ok.inj (h.read.symm.trans hread)
  split
  · rename_i hfull
    have hexpanded : Expanded host run generated := ⟨hread, hfull.1, hfull.2.1, hfull.2.2⟩
    rw [Finset.mem_insert, Finset.mem_sdiff, or_comm]
    refine or_congr (and_congr_right fun _ => ⟨?_, fun h => h _ hexpanded⟩)
      ⟨fun h => ⟨⟨generated, hexpanded⟩, h⟩, And.right⟩
    intro hnot generated' hother
    rwa [honly hother]
  · rename_i hnot
    have hnone (generated' : Finset String) : ¬ Expanded host run generated' := by
      intro h
      have hsame := honly h
      subst hsame
      exact hnot ⟨h.base, h.some_phase, h.recorded⟩
    constructor
    · exact fun hmem => .inl ⟨hmem, fun generated' h => absurd h (hnone generated')⟩
    · rintro (⟨hmem, -⟩ | ⟨⟨generated', h⟩, -⟩)
      · exact hmem
      · exact absurd h (hnone generated')

lemma generated_of_none {run : RunSummary} (h : run.planExpansion = none) :
    run.generated host = .ok ∅ := by
  rw [RunSummary.generated, RunSummary.record, h]
  rfl

lemma records_of_none {run : RunSummary} (h : run.planExpansion = none) {phase : String}
    (hphase : phase ∈ run.executedPhases) : Records host run phase := by
  refine .inl ⟨hphase, fun generated hexpanded => ?_⟩
  have hempty := hexpanded.read.symm.trans (generated_of_none host h)
  exact absurd (Except.ok.inj hempty) hexpanded.some_phase

lemma executedWithExpansions_isOk {run : RunSummary} (h : Readable host run) :
    ∃ names, executedWithExpansions host run = .ok names := by
  obtain ⟨generated, hread⟩ := h
  simp [executedWithExpansions, hread, bind, Except.bind]

lemma mem_union {start union : Finset String} {family : List RunSummary}
    (h : family.foldlM (fun union run => (executedWithExpansions host run).map (union ∪ ·)) start =
      .ok union) (phase : String) :
    phase ∈ union ↔ phase ∈ start ∨ ∃ run ∈ family, Records host run phase := by
  induction family generalizing start with
  | nil =>
    obtain rfl := Except.ok.inj h
    simp
  | cons run family ih =>
    rw [List.foldlM_cons, bind_eq_ok] at h
    obtain ⟨next, hnext, h⟩ := h
    cases hnames : executedWithExpansions host run with
    | error e => simp [hnames, Except.map] at hnext
    | ok names =>
      rw [hnames] at hnext
      obtain rfl := Except.ok.inj hnext
      rw [ih h, Finset.mem_union, mem_executedWithExpansions host hnames, or_assoc]
      simp

lemma union_isOk {family : List RunSummary} (h : ∀ run ∈ family, Readable host run)
    (start : Finset String) :
    ∃ union, family.foldlM
      (fun union run => (executedWithExpansions host run).map (union ∪ ·)) start = .ok union := by
  induction family generalizing start with
  | nil => exact ⟨start, rfl⟩
  | cons run family ih =>
    obtain ⟨names, hnames⟩ := executedWithExpansions_isOk host (h run (by simp))
    obtain ⟨union, hunion⟩ := ih (fun run hrun => h run (by simp [hrun])) (start ∪ names)
    exact ⟨union, by simpa [List.foldlM_cons, hnames, Except.map, bind, Except.bind] using hunion⟩

/-! ### The verdict of a family -/

structure Certified (phases : List String) (family : List RunSummary) : Prop where
  latest : ∃ run, family.getLast? = some run ∧ run.ok = some true
  unfailed : ∀ run ∈ family, ¬ (run.ok = some false ∧ run.awaiting = false)
  covered : ∀ phase ∈ phases, ∃ run ∈ family, Records host run phase

lemma failed_iff (run : RunSummary) :
    run.failed = true ↔ run.ok = some false ∧ run.awaiting = false := by
  simp [RunSummary.failed]

variable {host} {spec : ExperimentSpec Json} {phases : List String}
  (hphases : specPhaseNames host spec = .ok phases)

include hphases

theorem certified_of_familyStatus {family : List RunSummary}
    (h : familyStatus host spec family = .ok (some "completed")) :
    Certified host phases family := by
  rw [familyStatus] at h
  split_ifs at h with hfailed hlatest
  · simp at h
  · simp at h
  · simp only [bind_eq_ok, hphases, Except.ok.injEq, exists_eq_left'] at h
    obtain ⟨union, hunion, h⟩ := h
    have hcovered : phases.toFinset ⊆ union := by
      by_contra hnot
      rw [if_neg hnot] at h
      simp at h
    constructor
    case latest =>
      rw [not_not] at hlatest
      exact Option.bind_eq_some_iff.mp hlatest
    case unfailed =>
      intro run hrun hbad
      exact hfailed (List.any_eq_true.mpr ⟨run, hrun, (failed_iff run).mpr hbad⟩)
    case covered =>
      intro phase hphase
      have hmem := (mem_union host hunion phase).mp (hcovered (List.mem_toFinset.mpr hphase))
      simpa using hmem

theorem familyStatus_of_certified {family : List RunSummary} (h : Certified host phases family)
    (hread : ∀ run ∈ family, Readable host run) :
    familyStatus host spec family = .ok (some "completed") := by
  have hunfailed : ¬ family.any (·.failed) = true := by
    intro hany
    obtain ⟨run, hrun, hfailed⟩ := List.any_eq_true.mp hany
    exact h.unfailed run hrun ((failed_iff run).mp hfailed)
  have hlatest : ¬ (family.getLast?.bind (·.ok)) ≠ some true := by
    rw [not_not]
    exact Option.bind_eq_some_iff.mpr h.latest
  obtain ⟨union, hunion⟩ := union_isOk host hread ∅
  have hcovered : phases.toFinset ⊆ union := by
    intro phase hphase
    obtain hcovered := h.covered phase (List.mem_toFinset.mp hphase)
    exact (mem_union host hunion phase).mpr (.inr hcovered)
  have hexecuted : familyExecutedUnion host family = .ok union := hunion
  rw [familyStatus, if_neg hunfailed, if_neg hlatest]
  simp only [hphases, hexecuted, bind, Except.bind, if_pos hcovered]

omit hphases in
lemma mem_of_firstDecisive {families : List (List RunSummary)} {status : String}
    (h : firstDecisive host spec families = .ok (some status)) :
    ∃ family ∈ families, familyStatus host spec family = .ok (some status) := by
  induction families with
  | nil => simp [firstDecisive] at h
  | cons family families ih =>
    rw [firstDecisive, bind_eq_ok] at h
    obtain ⟨verdict, hverdict, h⟩ := h
    cases verdict with
    | none =>
      obtain ⟨older, hmem, holder⟩ := ih h
      exact ⟨older, List.mem_cons_of_mem family hmem, holder⟩
    | some found =>
      obtain rfl := Option.some.inj (Except.ok.inj h)
      exact ⟨family, List.mem_cons_self, hverdict⟩

/-! ### The status of the spec -/

/-- The spec runs once, and its author neither drafted, buried nor replaced it. -/
structure Ordinary (spec : ExperimentSpec Json) : Prop where
  notDraft : spec.status ≠ "draft"
  notTombstoned : spec.status ≠ "tombstoned"
  notSuperseded : spec.supersededBy.getD "" = ""
  once : spec.repeatable = false

variable {digest : String} {now : Instant} {window : ℤ} {runs : List RunSummary}

omit hphases in
lemma not_running (hopen : ∀ run ∈ runs, run.isOpen = false) :
    isCurrentlyRunning now window runs = false := by
  rw [isCurrentlyRunning, List.any_eq_false]
  intro run hrun
  simp [hopen run hrun]

omit hphases in
lemma currentRevision_of_recorded (hdigest : digest ≠ "")
    (h : ∀ run ∈ runs, run.workflowRevisionId = digest) :
    runsOfCurrentRevision host spec digest runs = .ok (runs, false) := by
  cases runs with
  | nil => rfl
  | cons run runs =>
    have hrecorded : (run :: runs).filter (·.workflowRevisionId ≠ "") = run :: runs :=
      List.filter_eq_self.mpr fun r hr => by simpa [h r hr] using hdigest
    have hcertifying : (run :: runs).filter (·.workflowRevisionId = digest) = run :: runs :=
      List.filter_eq_self.mpr fun r hr => by simpa using h r hr
    rw [runsOfCurrentRevision, if_neg (List.cons_ne_nil run runs), hrecorded,
      if_pos (List.cons_ne_nil run runs), hcertifying]
    rfl

/-- What decides where the runs are of the current revision and none is open. -/
def settledStatus (host : Host) (spec : ExperimentSpec Json) (runs : List RunSummary) :
    Except String String :=
  if (runs.getLast?.map (·.awaiting)).getD false then .ok "awaiting_approval"
  else do
    match ← newestDecisiveFamilyStatus host spec runs with
    | some decisive => .ok decisive
    | none          =>
      if runs ≠ [] then .ok "blocked" else .ok (firstText spec.status "runnable")

omit hphases in
lemma deriveStatus_eq (hspec : Ordinary spec) (hopen : ∀ run ∈ runs, run.isOpen = false)
    (hcurrent : runsOfCurrentRevision host spec digest runs = .ok (runs, false)) :
    deriveStatus host spec digest now window runs = settledStatus host spec runs := by
  have hauthored : ¬ (spec.status = "draft" ∨ spec.status = "tombstoned") :=
    not_or.mpr ⟨hspec.notDraft, hspec.notTombstoned⟩
  rw [deriveStatus, if_neg hauthored, if_neg (not_not.mpr hspec.notSuperseded), hspec.once,
    if_neg Bool.false_ne_true, settledStatus]
  simp only [hcurrent, not_running hopen, bind, Except.bind, pure, Except.pure]
  rw [if_neg Bool.false_ne_true]
  split
  · rfl
  · cases newestDecisiveFamilyStatus host spec runs with
    | error e => rfl
    | ok verdict =>
      cases verdict with
      | some decisive => rfl
      | none =>
        by_cases hruns : runs = []
        · simp [hruns]
        · simp [hruns]

/-- A completed spec has a certified family, or no run and an author who says so. -/
theorem certified_of_completed (h : settledStatus host spec runs = .ok "completed") :
    (runs = [] ∧ spec.status = "completed") ∨
      ∃ key, familyAt runs key ≠ [] ∧ Certified host phases (familyAt runs key) := by
  rw [settledStatus] at h
  by_cases hawaiting : (runs.getLast?.map (·.awaiting)).getD false = true
  · rw [if_pos hawaiting] at h
    simp at h
  · rw [if_neg hawaiting] at h
    obtain ⟨verdict, hverdict, h⟩ := bind_eq_ok.mp h
    cases verdict with
    | some decisive =>
      obtain rfl := Except.ok.inj h
      obtain ⟨family, hmem, hfamily⟩ := mem_of_firstDecisive hverdict
      obtain ⟨key, rfl, hne⟩ := mem_certifyingFamilies.mp hmem
      exact .inr ⟨key, hne, certified_of_familyStatus hphases hfamily⟩
    | none =>
      by_cases hruns : runs = []
      · refine .inl ⟨hruns, ?_⟩
        by_cases hstatus : spec.status = ""
        · simp [hruns, firstText, hstatus] at h
        · simpa [hruns, firstText, hstatus] using h
      · simp [hruns] at h

/-- A spec whose newest family is certified is completed, unless the last run awaits an approval. -/
theorem completed_of_certified (init : List RunSummary) {last : RunSummary}
    (hawaiting : last.awaiting = false)
    (hread : ∀ run ∈ familyAt (init ++ [last]) (newestKey (init ++ [last])), Readable host run)
    (hcertified : Certified host phases (familyAt (init ++ [last]) (newestKey (init ++ [last])))) :
    settledStatus host spec (init ++ [last]) = .ok "completed" := by
  obtain ⟨older, holder⟩ := certifyingFamilies_newest init last
  have hverdict : newestDecisiveFamilyStatus host spec (init ++ [last]) =
      .ok (some "completed") := by
    rw [newestDecisiveFamilyStatus, holder, firstDecisive,
      familyStatus_of_certified hphases hcertified hread]
    rfl
  rw [settledStatus, List.getLast?_concat, Option.map_some, Option.getD_some, hawaiting,
    if_neg Bool.false_ne_true, hverdict]
  rfl

/-- The status of an ordinary spec by the runs of its revision, none of them open. It is completed
only on a certified family, or without runs on its author's word; and a certified newest family
completes it, unless its last run awaits an approval. -/
theorem completed_on_evidence (hspec : Ordinary spec)
    (hcurrent : runsOfCurrentRevision host spec digest runs = .ok (runs, false))
    (hopen : ∀ run ∈ runs, run.isOpen = false) :
    (deriveStatus host spec digest now window runs = .ok "completed" →
      (runs = [] ∧ spec.status = "completed") ∨
        ∃ key, familyAt runs key ≠ [] ∧ Certified host phases (familyAt runs key)) ∧
    (Certified host phases (familyAt runs (newestKey runs)) →
      (∀ run ∈ familyAt runs (newestKey runs), Readable host run) →
      (∀ last, runs.getLast? = some last → last.awaiting = false) →
      deriveStatus host spec digest now window runs = .ok "completed") := by
  rw [deriveStatus_eq hspec hopen hcurrent]
  refine ⟨certified_of_completed hphases, fun hcertified hread hawaiting => ?_⟩
  obtain rfl | ⟨init, last, rfl⟩ := runs.eq_nil_or_concat'
  · obtain ⟨run, hrun, -⟩ := hcertified.latest
    simp [familyAt, members] at hrun
  · exact completed_of_certified hphases init (hawaiting last List.getLast?_concat) hread hcertified

end Completion

/-! ### A workflow with a checkpoint

The run stops at the review, which its operator approves, and a second run ships. -/

def shipHost : Host where
  loads _ := .error ("JSONDecodeError", "Expecting value: line 1 column 1 (char 0)")
  repr value := value.typeName
  upper := id
  lower := id
  sha256 := id
  dumps value := value.typeName
  fromisoformat _ := none

def shipSpec : ExperimentSpec Json :=
  { plainSpec [("phases", .arr [.obj [("name", .str "build")], .obj [("name", .str "review")],
      .obj [("name", .str "ship")]])] with repeatable := false }

def ledgerPhase (phase status : String) : Json :=
  .obj [("phase", .str phase), ("status", .str status)]

def reviewLedger : Dict Json :=
  [("workflow_revision_id", .str "rev"), ("ok", .bool false), ("awaiting", .bool true),
    ("phases", .arr [ledgerPhase "build" "ok", ledgerPhase "review" "awaiting"]),
    ("run_id", .str "r1"), ("family_id", .str "r1")]

def shipLedger : Dict Json :=
  [("workflow_revision_id", .str "rev"), ("ok", .bool true), ("awaiting", .bool false),
    ("phases", .arr [ledgerPhase "ship" "ok"]), ("run_id", .str "r2"),
    ("parent_run_id", .str "r1"), ("family_id", .str "r1")]

def reviewRun : RunSummary where
  path := "review.json"
  ok := some false
  workflowRevisionId := "rev"
  executedPhases := {"build", "review"}
  runId := "r1"
  familyId := "r1"
  awaiting := true

def shipRun : RunSummary where
  path := "ship.json"
  ok := some true
  workflowRevisionId := "rev"
  executedPhases := {"ship"}
  runId := "r2"
  parentRunId := "r1"
  familyId := "r1"

lemma ship_family :
    familyAt ([reviewRun] ++ [shipRun]) (newestKey ([reviewRun] ++ [shipRun])) =
      [reviewRun, shipRun] := by
  rw [newestKey_concat]
  rfl

lemma shipSpec_ordinary : Ordinary shipSpec :=
  ⟨by decide +kernel, by decide +kernel, rfl, rfl⟩

lemma shipSpec_phases : specPhaseNames shipHost shipSpec = .ok ["build", "review", "ship"] := rfl

lemma ship_current :
    runsOfCurrentRevision shipHost shipSpec "rev" ([reviewRun] ++ [shipRun]) =
      .ok ([reviewRun] ++ [shipRun], false) :=
  currentRevision_of_recorded (by decide) (by simp [reviewRun, shipRun])

lemma ship_closed : ∀ run ∈ [reviewRun] ++ [shipRun], run.isOpen = false := by
  simp [reviewRun, shipRun]

lemma ship_certified : Certified shipHost ["build", "review", "ship"] [reviewRun, shipRun] where
  latest := ⟨shipRun, rfl, rfl⟩
  unfailed := by simp [reviewRun, shipRun]
  covered := by
    have hreview (phase : String) (h : phase ∈ reviewRun.executedPhases) :
        ∃ run ∈ [reviewRun, shipRun], Records shipHost run phase :=
      ⟨reviewRun, by simp, records_of_none shipHost rfl h⟩
    intro phase hphase
    simp only [List.mem_cons, List.not_mem_nil, or_false] at hphase
    rcases hphase with rfl | rfl | rfl
    · exact hreview "build" (by simp [reviewRun])
    · exact hreview "review" (by simp [reviewRun])
    · exact ⟨shipRun, by simp, records_of_none shipHost rfl (by simp [shipRun])⟩

lemma ship_readable : ∀ run ∈ [reviewRun, shipRun], Readable shipHost run := by
  intro run hrun
  simp only [List.mem_cons, List.not_mem_nil, or_false] at hrun
  rcases hrun with rfl | rfl
  · exact ⟨∅, generated_of_none shipHost rfl⟩
  · exact ⟨∅, generated_of_none shipHost rfl⟩

theorem shipped_on_evidence :
    deriveStatus shipHost shipSpec "rev" 0 0 ([reviewRun] ++ [shipRun]) = .ok "completed" :=
  (completed_on_evidence shipSpec_phases shipSpec_ordinary ship_current ship_closed).2
    (by rw [ship_family]; exact ship_certified) (by rw [ship_family]; exact ship_readable)
    (by simp [shipRun])

/-- The ledger has the phase with status ok. -/
def RanOk (ledger : Dict Json) (phase : String) : Prop :=
  ∃ items fields, Dict.get? "phases" ledger = some (.arr items) ∧ .obj fields ∈ items ∧
    Dict.get? "phase" fields = some (.str phase) ∧ Dict.get? "status" fields = some (.str "ok")

/-- The spec is completed though no run has the review with status ok. -/
theorem checkpoint_status_not_read :
    ∃ runs, [("review.json", reviewLedger), ("ship.json", shipLedger)].mapM (fun ledger =>
        summarizeRun shipHost (fun _ _ => none) ledger.1 "" ledger.2) = .ok runs ∧
      deriveStatus shipHost shipSpec "rev" 0 0 runs = .ok "completed" ∧
      (∀ phases, specPhaseNames shipHost shipSpec = .ok phases → "review" ∈ phases) ∧
      ∀ ledger ∈ [reviewLedger, shipLedger], ¬ RanOk ledger "review" := by
  refine ⟨[reviewRun] ++ [shipRun], rfl, ?_, ?_, ?_⟩
  · rw [deriveStatus_eq shipSpec_ordinary ship_closed ship_current]
    refine completed_of_certified shipSpec_phases [reviewRun] rfl ?_ ?_
    · rw [ship_family]
      exact ship_readable
    · rw [ship_family]
      exact ship_certified
  · intro phases hphases
    obtain rfl := Except.ok.inj (shipSpec_phases.symm.trans hphases)
    simp
  · intro ledger hledger hran
    obtain ⟨items, fields, hitems, hmem, hphase, hstatus⟩ := hran
    simp only [List.mem_cons, List.not_mem_nil, or_false] at hledger
    rcases hledger with rfl | rfl
    · obtain rfl := Json.arr.inj (Option.some.inj hitems).symm
      simp only [ledgerPhase, List.mem_cons, List.not_mem_nil, or_false, Json.obj.injEq] at hmem
      rcases hmem with rfl | rfl
      · simp [Dict.get?] at hphase
      · simp [Dict.get?] at hstatus
    · obtain rfl := Json.arr.inj (Option.some.inj hitems).symm
      simp only [ledgerPhase, List.mem_cons, List.not_mem_nil, or_false, Json.obj.injEq] at hmem
      subst hmem
      simp [Dict.get?] at hphase

end AgenticDynamics.Experiment.SpecStatus
