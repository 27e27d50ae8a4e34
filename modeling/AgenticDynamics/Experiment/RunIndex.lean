import Mathlib.Data.List.ReduceOption
import AgenticDynamics.Library.StableSort
import AgenticDynamics.Experiment.SpecCompletion

/-!
# The ledgers of a result directory

The runs of a spec are the objects among the files of its result directory, undated runs first and
the others by time. What keeps the directory from being read, and the status from being derived, is
said file by file and family by family.
-/

namespace AgenticDynamics.Experiment.SpecStatus

open Python Loaded StableSort

section RunIndex

variable (host : Host) (strptime : Strptime)

/-! ### Loading -/

/-- A file that `glob("*.json")` finds: its name without the suffix, its path under the root, and
its bytes unless opening it is an `OSError`. -/
structure LedgerFile where
  stem : String
  path : String
  bytes : Option ByteArray

def LedgerFile.name (file : LedgerFile) : String := file.stem ++ ".json"

/-- `json.loads(path.read_text())`; none for a file that is skipped. -/
def readLedger (file : LedgerFile) : Except String (Option (Dict Json)) :=
  match file.bytes with
  | none       => .ok none
  | some bytes =>
    match String.fromUTF8? bytes with
    | none      => .error "UnicodeDecodeError"
    | some text =>
      match host.loads text with
      | .ok (.obj payload) => .ok (some payload)
      | .ok _              => .ok none
      | .error (cls, _)    => if cls = "JSONDecodeError" then .ok none else .error cls

def loadRun (file : LedgerFile) : Except String (Option RunSummary) := do
  match ← readLedger host file with
  | some payload => (summarizeRun host strptime file.path file.stem payload).map some
  | none         => .ok none

/-- `(r.moment is not None, r.moment or epoch)`. -/
def momentKey (run : RunSummary) : Bool ×ₗ Instant :=
  toLex (run.timestamp.isSome, run.timestamp.getD 0)

/-- `load_runs`; there may be no directory. -/
def loadRuns (specDir : Option (List LedgerFile)) : Except String (List RunSummary) :=
  match specDir with
  | none       => .ok []
  | some files => do
    let runs ← (sortBy LedgerFile.name files).mapM (loadRun host strptime)
    .ok (sortBy momentKey runs.reduceOption)

/-! ### What is promised -/

def LedgerFile.object? (file : LedgerFile) : Option (Dict Json) :=
  (file.bytes.bind String.fromUTF8?).bind fun text =>
    match host.loads text with
    | .ok (.obj payload) => some payload
    | _                  => none

/-- An undated run is before all, a dated one before those of its time and later. -/
def NotLater (a b : RunSummary) : Prop :=
  ∀ t, a.timestamp = some t → ∃ u, b.timestamp = some u ∧ t ≤ u

/-- The runs are those of the files that hold objects, in the order of their times. -/
structure Indexes (files : List LedgerFile) (runs : List RunSummary) : Prop where
  kept : ∃ summaries, runs.Perm summaries ∧
    List.Forall₂ (fun file run => ∃ payload, file.object? host = some payload ∧
        summarizeRun host strptime file.path file.stem payload = .ok run)
      (files.filter fun file => (file.object? host).isSome) summaries
  ordered : runs.Pairwise NotLater

/-! ### What a file must be -/

/-- The moment that a timestamp is read as. -/
def momentOf (text : Option Json) : Option DateTime :=
  text.bind fun value =>
    let raw := strip (value.text host.toRuntime)
    if value.truthy = false ∨ raw = "" then none
    else
      let zoned := String.ofList (raw.toList.flatMap fun c =>
        if c = 'Z' then "+00:00".toList else [c])
      (host.fromisoformat zoned).orElse fun _ =>
        (strptime (stampOf raw) "%Y%m%dT%H%M%SZ").orElse fun _ =>
          strptime (stampOf raw) "%Y%m%dT%H%M%S%fZ"

/-- In UTC the moment is still within the years 1 to 9999. -/
def InYears (text : Option Json) : Prop :=
  ∀ moment, momentOf host strptime text = some moment →
    0 ≤ moment.micros ∧ moment.micros ≤ maxInstant

/-- A value that is true under the key can be iterated. -/
def Iterable (payload : Dict Json) (key : String) : Prop :=
  ∀ value, Dict.get? key payload = some value → value.truthy = true →
    (∃ s, value = .str s) ∨ (∃ items, value = .arr items) ∨ ∃ fields, value = .obj fields

/-- A ledger whose fields can all be coerced. -/
structure Coercible (stem : String) (payload : Dict Json) : Prop where
  ended : InYears host strptime (Dict.get? "ended_at" payload)
  started : InYears host strptime (Dict.get? "started_at" payload)
  named : momentOf host strptime (Dict.get? "ended_at" payload) = none →
    momentOf host strptime (Dict.get? "started_at" payload) = none →
    InYears host strptime (some (.str stem))
  cost : ∀ n, Dict.get? "total_cost_usd" payload = some (.int n) → floatOfInt n ≠ none
  phases : Iterable payload "phases"

structure Harmless (file : LedgerFile) : Prop where
  decodes : ∀ bytes, file.bytes = some bytes → String.fromUTF8? bytes ≠ none
  parses : ∀ text, file.bytes.bind String.fromUTF8? = some text →
    ∀ cls message, host.loads text = .error (cls, message) → cls = "JSONDecodeError"
  coercible : ∀ payload, file.object? host = some payload →
    Coercible host strptime file.stem payload

/-! ### Reading a file -/

variable {host strptime}

lemma parseTimestamp_eq (text : Option Json) :
    parseTimestamp host strptime text =
      match momentOf host strptime text with
      | none        => .ok none
      | some moment => (inUtc moment).map some := by
  cases text with
  | none => rfl
  | some value =>
    rw [parseTimestamp, momentOf, Option.bind_some]
    dsimp only
    split
    · rfl
    · rfl

lemma inUtc_isOk {moment : DateTime} :
    (∃ instant, inUtc moment = .ok instant) ↔ 0 ≤ moment.micros ∧ moment.micros ≤ maxInstant := by
  rw [inUtc]
  split
  · rename_i h
    exact ⟨fun _ => h, fun _ => ⟨_, rfl⟩⟩
  · rename_i h
    exact ⟨fun ⟨_, heq⟩ => absurd heq (by simp), fun hin => absurd hin h⟩

lemma parseTimestamp_isOk {text : Option Json} :
    (∃ moment, parseTimestamp host strptime text = .ok moment) ↔ InYears host strptime text := by
  rw [parseTimestamp_eq, InYears]
  cases momentOf host strptime text with
  | none => simp
  | some moment =>
    have hyears : (∃ instant, inUtc moment = .ok instant) ↔
        ∃ found, (inUtc moment).map some = .ok found := by
      cases inUtc moment with
      | error e => simp [Except.map]
      | ok instant => simp [Except.map]
    rw [← hyears, inUtc_isOk]
    simp

lemma parseTimestamp_none_iff {text : Option Json} {found : Option Instant}
    (h : parseTimestamp host strptime text = .ok found) :
    found = none ↔ momentOf host strptime text = none := by
  rw [parseTimestamp_eq] at h
  cases hmoment : momentOf host strptime text with
  | none =>
    rw [hmoment] at h
    simpa using (Except.ok.inj h).symm
  | some moment =>
    cases hutc : inUtc moment with
    | error e => simp [hmoment, hutc, Except.map] at h
    | ok instant =>
      simp only [hmoment, hutc, Except.map, Except.ok.injEq] at h
      simp [← h]

lemma itemsOrEmpty_isOk {payload : Dict Json} {key : String} :
    (∃ items, itemsOrEmpty payload key = .ok items) ↔ Iterable payload key := by
  rw [itemsOrEmpty, Iterable]
  cases Dict.get? key payload with
  | none => simp [Json.orElse, Json.toList]
  | some value =>
    by_cases htrue : value.truthy = true
    · cases value <;> simp [Json.orElse, Json.toList, htrue]
    · simp [Json.orElse, Json.toList, htrue]

def runMoment (host : Host) (strptime : Strptime) (stem : String) (ended started : Option Instant) :
    Except String (Option Instant) :=
  match ended.orElse fun _ => started with
  | some moment => .ok (some moment)
  | none        => parseTimestamp host strptime (some (.str stem))

def runCost (host : Host) (cost : Option Json) : Except String (Option PyFloat) :=
  match cost with
  | some (.bool b)  => (Json.toFloat host.toRuntime (.bool b)).map some
  | some (.int n)   => (Json.toFloat host.toRuntime (.int n)).map some
  | some (.float x) => (Json.toFloat host.toRuntime (.float x)).map some
  | _               => .ok none

/-- The projection of a ledger whose fields are coerced. -/
def summaryOf (host : Host) (path : String) (payload : Dict Json)
    (ended started moment : Option Instant) (costUsd : Option PyFloat) (phases : List Json) :
    RunSummary :=
  { path
    timestamp := moment
    ok := match Dict.get? "ok" payload with
      | some (.bool b) => some b
      | _              => none
    model := textOrNone host payload "model"
    costUsd
    gitSha := textOrNone host payload "git_sha"
    workflowRevisionId := textOrEmpty host payload "workflow_revision_id"
    executedPhases := (namesUnder host "phase" phases).toFinset
    planExpansion := match Dict.get? "plan_expansion" payload with
      | some (.obj record) => some record
      | _                  => none
    runId := textOrEmpty host payload "run_id"
    parentRunId := textOrEmpty host payload "parent_run_id"
    familyId := textOrEmpty host payload "family_id"
    awaiting := match Dict.get? "awaiting" payload with
      | some (.bool b) => b
      | _              => false
    startedAt := started
    isOpen := ended.isNone && started.isSome }

lemma summarizeRun_eq (path stem : String) (payload : Dict Json) :
    summarizeRun host strptime path stem payload = (do
      let ended ← parseTimestamp host strptime (Dict.get? "ended_at" payload)
      let started ← parseTimestamp host strptime (Dict.get? "started_at" payload)
      let moment ← runMoment host strptime stem ended started
      let cost ← runCost host (Dict.get? "total_cost_usd" payload)
      let phases ← itemsOrEmpty payload "phases"
      .ok (summaryOf host path payload ended started moment cost phases)) := by
  rw [summarizeRun]
  refine congrArg _ (funext fun ended => congrArg _ (funext fun started => ?_))
  cases ended with
  | some ended =>
    cases Dict.get? "total_cost_usd" payload with
    | none => rfl
    | some value => cases value <;> rfl
  | none =>
    cases started with
    | some started =>
      cases Dict.get? "total_cost_usd" payload with
      | none => rfl
      | some value => cases value <;> rfl
    | none =>
      refine congrArg _ (funext fun moment => ?_)
      cases Dict.get? "total_cost_usd" payload with
      | none => rfl
      | some value => cases value <;> rfl

lemma runCost_isOk {cost : Option Json} :
    (∃ x, runCost host cost = .ok x) ↔ ∀ n, cost = some (.int n) → floatOfInt n ≠ none := by
  cases cost with
  | none => simp [runCost]
  | some value =>
    cases value with
    | int n => cases hfloat : floatOfInt n <;> simp [runCost, Json.toFloat, hfloat, Except.map]
    | _ => simp [runCost, Json.toFloat, Except.map]

lemma runMoment_isOk {stem : String} {ended started : Option Instant} :
    (∃ moment, runMoment host strptime stem ended started = .ok moment) ↔
      (ended = none → started = none → InYears host strptime (some (.str stem))) := by
  cases ended with
  | some ended => simp [runMoment]
  | none =>
    cases started with
    | some started => simp [runMoment]
    | none => simpa [runMoment] using parseTimestamp_isOk

lemma summarizeRun_isOk {path stem : String} {payload : Dict Json} :
    (∃ run, summarizeRun host strptime path stem payload = .ok run) ↔
      Coercible host strptime stem payload := by
  simp only [summarizeRun_eq, bind_eq_ok]
  constructor
  · rintro ⟨run, ended, hended, started, hstarted, moment, hmoment, cost, hcost, phases, hphases, -⟩
    refine ⟨parseTimestamp_isOk.mp ⟨ended, hended⟩, parseTimestamp_isOk.mp ⟨started, hstarted⟩, ?_,
      runCost_isOk.mp ⟨cost, hcost⟩, itemsOrEmpty_isOk.mp ⟨phases, hphases⟩⟩
    intro hnoEnd hnoStart
    exact runMoment_isOk.mp ⟨moment, hmoment⟩ ((parseTimestamp_none_iff hended).mpr hnoEnd)
      ((parseTimestamp_none_iff hstarted).mpr hnoStart)
  · intro h
    obtain ⟨ended, hended⟩ := parseTimestamp_isOk.mpr h.ended
    obtain ⟨started, hstarted⟩ := parseTimestamp_isOk.mpr h.started
    obtain ⟨moment, hmoment⟩ := runMoment_isOk.mpr fun hnoEnd hnoStart =>
      h.named ((parseTimestamp_none_iff hended).mp hnoEnd)
        ((parseTimestamp_none_iff hstarted).mp hnoStart)
    obtain ⟨cost, hcost⟩ := runCost_isOk.mpr h.cost
    obtain ⟨phases, hphases⟩ := itemsOrEmpty_isOk.mpr h.phases
    exact ⟨_, ended, hended, started, hstarted, moment, hmoment, cost, hcost, phases, hphases, rfl⟩

/-! ### Loading the directory -/

lemma object?_of_readLedger {file : LedgerFile} {found : Option (Dict Json)}
    (h : readLedger host file = .ok found) : file.object? host = found := by
  rw [readLedger] at h
  rw [LedgerFile.object?]
  cases hbytes : file.bytes with
  | none => simpa [hbytes] using h
  | some bytes =>
    cases htext : String.fromUTF8? bytes with
    | none => simp [hbytes, htext] at h
    | some text =>
      simp only [hbytes, htext] at h
      simp only [Option.bind_some, htext]
      split at h
      · rename_i hload
        simpa [hload] using h
      · rename_i value hother hload
        have hnone : none = found := Except.ok.inj h
        rw [hload, ← hnone]
        split
        · rename_i payload hobj
          exact absurd (Except.ok.inj hobj) (hother payload)
        · rfl
      · rename_i hload
        rw [hload]
        split_ifs at h
        simpa using h

lemma readLedger_isOk {file : LedgerFile} :
    (∃ found, readLedger host file = .ok found) ↔
      (∀ bytes, file.bytes = some bytes → String.fromUTF8? bytes ≠ none) ∧
        ∀ text, file.bytes.bind String.fromUTF8? = some text →
          ∀ cls message, host.loads text = .error (cls, message) → cls = "JSONDecodeError" := by
  rw [readLedger]
  cases file.bytes with
  | none => simp
  | some bytes =>
    cases htext : String.fromUTF8? bytes with
    | none => simp [htext]
    | some text =>
      cases hload : host.loads text with
      | ok value => cases value <;> simp [htext, hload]
      | error e =>
        obtain ⟨cls, message⟩ := e
        by_cases hdecode : cls = "JSONDecodeError"
        · simp [htext, hload, hdecode]
        · simp [htext, hload, hdecode]

lemma loadRun_isOk {file : LedgerFile} :
    (∃ run, loadRun host strptime file = .ok run) ↔ Harmless host strptime file := by
  rw [loadRun]
  constructor
  · rintro ⟨run, h⟩
    obtain ⟨found, hfound, h⟩ := bind_eq_ok.mp h
    obtain ⟨hdecodes, hparses⟩ := readLedger_isOk.mp ⟨found, hfound⟩
    refine ⟨hdecodes, hparses, fun payload hpayload => ?_⟩
    rw [object?_of_readLedger hfound] at hpayload
    subst hpayload
    cases hsummary : summarizeRun host strptime file.path file.stem payload with
    | error e => simp [hsummary, Except.map] at h
    | ok run => exact summarizeRun_isOk.mp ⟨run, hsummary⟩
  · intro h
    obtain ⟨found, hfound⟩ := readLedger_isOk.mpr ⟨h.decodes, h.parses⟩
    have hobject := object?_of_readLedger hfound
    cases found with
    | none => exact ⟨none, by simp [hfound, bind, Except.bind]⟩
    | some payload =>
      obtain ⟨run, hrun⟩ := (@summarizeRun_isOk host strptime file.path file.stem payload).mpr
        (h.coercible payload hobject)
      exact ⟨some run, by simp [hfound, hrun, bind, Except.bind, Except.map]⟩

/-- The summary of the object that the file holds. -/
def LedgerFile.summary? (host : Host) (strptime : Strptime) (file : LedgerFile) :
    Option RunSummary :=
  (file.object? host).bind fun payload =>
    (summarizeRun host strptime file.path file.stem payload).toOption

lemma summary?_of_loadRun {file : LedgerFile} {run : Option RunSummary}
    (h : loadRun host strptime file = .ok run) : file.summary? host strptime = run := by
  rw [loadRun] at h
  obtain ⟨found, hfound, h⟩ := bind_eq_ok.mp h
  rw [LedgerFile.summary?, object?_of_readLedger hfound]
  cases found with
  | none => exact Except.ok.inj h
  | some payload =>
    dsimp only at h
    cases hsummary : summarizeRun host strptime file.path file.stem payload with
    | error e => simp [hsummary, Except.map] at h
    | ok summary =>
      rw [hsummary] at h
      simpa [hsummary, Except.toOption] using Except.ok.inj h

lemma forall₂_summaries {files : List LedgerFile}
    (h : ∀ file ∈ files, Harmless host strptime file) :
    List.Forall₂ (fun file run => ∃ payload, file.object? host = some payload ∧
        summarizeRun host strptime file.path file.stem payload = .ok run)
      (files.filter fun file => (file.object? host).isSome)
      (files.filterMap (LedgerFile.summary? host strptime)) := by
  induction files with
  | nil => exact .nil
  | cons file files ih =>
    obtain ⟨hfile, hfiles⟩ := List.forall_mem_cons.mp h
    cases hobject : file.object? host with
    | none =>
      have hnone : file.summary? host strptime = none := by simp [LedgerFile.summary?, hobject]
      rw [List.filter_cons_of_neg (by simp [hobject]), List.filterMap_cons_none hnone]
      exact ih hfiles
    | some payload =>
      obtain ⟨run, hrun⟩ := (@summarizeRun_isOk host strptime file.path file.stem payload).mpr
        (hfile.coercible payload hobject)
      have hsome : file.summary? host strptime = some run := by
        simp [LedgerFile.summary?, hobject, hrun, Except.toOption]
      rw [List.filter_cons_of_pos (by simp [hobject]), List.filterMap_cons_some hsome]
      exact .cons ⟨payload, hobject, hrun⟩ (ih hfiles)

lemma notLater_of_momentKey {a b : RunSummary} (h : momentKey a ≤ momentKey b) : NotLater a b := by
  intro t ht
  rw [momentKey, momentKey, Prod.Lex.toLex_le_toLex] at h
  cases hb : b.timestamp with
  | none =>
    rw [ht, hb] at h
    rcases h with h | ⟨h, -⟩
    · exact absurd h (by simp)
    · exact absurd h (by simp)
  | some u =>
    refine ⟨u, rfl, ?_⟩
    simpa [ht, hb] using h

/-- The summaries of the files, oldest first. -/
def runsOf (host : Host) (strptime : Strptime) (files : List LedgerFile) : List RunSummary :=
  sortBy momentKey ((sortBy LedgerFile.name files).filterMap (LedgerFile.summary? host strptime))

theorem loadRuns_eq_ok {specDir : Option (List LedgerFile)} {runs : List RunSummary} :
    loadRuns host strptime specDir = .ok runs ↔
      (∀ file ∈ specDir.getD [], Harmless host strptime file) ∧
        runs = runsOf host strptime (specDir.getD []) := by
  cases specDir with
  | none =>
    have hnil : runsOf host strptime [] = [] := by simp [runsOf, sortBy]
    simp [loadRuns, hnil, eq_comm]
  | some files =>
    have hloop (found : List (Option RunSummary)) :
        (sortBy LedgerFile.name files).mapM (loadRun host strptime) = .ok found ↔ _ :=
      mapM_eq_ok fun file run => @summary?_of_loadRun host strptime file run
    simp only [loadRuns, bind_eq_ok, Option.getD_some, Except.ok.injEq]
    constructor
    · rintro ⟨found, hfound, rfl⟩
      obtain ⟨hall, rfl⟩ := (hloop found).mp hfound
      refine ⟨fun file hfile => loadRun_isOk.mp ⟨_, hall file (mem_sortBy.mpr hfile)⟩, ?_⟩
      rw [runsOf, List.reduceOption, List.filterMap_map, Function.id_comp]
    · rintro ⟨hfiles, rfl⟩
      refine ⟨_, (hloop _).mpr ⟨fun file hfile => ?_, rfl⟩, ?_⟩
      · obtain ⟨run, hrun⟩ := loadRun_isOk.mpr (hfiles file (mem_sortBy.mp hfile))
        rw [summary?_of_loadRun hrun]
        exact hrun
      · rw [runsOf, List.reduceOption, List.filterMap_map, Function.id_comp]

theorem indexes_runsOf {files : List LedgerFile}
    (h : ∀ file ∈ files, Harmless host strptime file) :
    Indexes host strptime files (runsOf host strptime files) := by
  constructor
  case kept =>
    have hsorted := @forall₂_summaries host strptime (sortBy LedgerFile.name files)
      fun file hfile => h file (mem_sortBy.mp hfile)
    have hfiles := ((sortBy_perm LedgerFile.name files).filter
      fun file => (file.object? host).isSome).symm
    obtain ⟨summaries, hsummaries, hperm⟩ := List.perm_comp_forall₂ hfiles hsorted
    exact ⟨summaries, (sortBy_perm momentKey _).trans hperm.symm, hsummaries⟩
  case ordered =>
    exact (sortBy_pairwise momentKey _).imp notLater_of_momentKey

/-! ### What the status needs of the runs -/

/-- The declared phases of the spec can be read. -/
def Declared (spec : ExperimentSpec Json) : Prop :=
  ∃ params, spec.workflow.params = .obj params ∧ Iterable params "phases"

/-- The last run of the family is ok and none failed, so that its phases decide. -/
structure Green (family : List RunSummary) : Prop where
  unfailed : family.any (·.failed) = false
  latest : family.getLast?.bind (·.ok) = some true

/-- The phases of an expansion can be read. -/
def RunSummary.Expandable (run : RunSummary) : Prop := Iterable run.record "phases"

/-- Whatever `derive_status` reads of the runs can be read: all expansions, where ledgers without a
revision are compared with the spec; and those of a green family, if no newer one has a verdict. -/
structure Legible (host : Host) (spec : ExperimentSpec Json) (digest : String) (now : Instant)
    (window : ℤ) (runs : List RunSummary) : Prop where
  unrecorded : runs ≠ [] → (∀ run ∈ runs, run.workflowRevisionId = "") →
    Declared spec ∧ (specPhaseNames host spec ≠ .ok [] → (∃ run ∈ runs, run.ok = some true) →
      ∀ run ∈ runs, run.Expandable)
  scanned : ∀ certifying changed,
    runsOfCurrentRevision host spec digest runs = .ok (certifying, changed) →
    isCurrentlyRunning now window certifying = false →
    (certifying.getLast?.map (·.awaiting)).getD false = false →
    ∀ newer family older, certifyingFamilies certifying = newer ++ family :: older →
      (∀ other ∈ newer, familyStatus host spec other = .ok none) → Green family →
        Declared spec ∧ ∀ run ∈ family, run.Expandable

variable {spec : ExperimentSpec Json}

variable (host) in
lemma specPhaseNames_isOk : (∃ names, specPhaseNames host spec = .ok names) ↔ Declared spec := by
  rw [specPhaseNames, Declared]
  cases hparams : spec.workflow.params with
  | obj params =>
    simp only [bind_eq_ok, Except.ok.injEq, exists_eq_left', Json.obj.injEq]
    rw [← itemsOrEmpty_isOk]
    exact ⟨fun ⟨_, items, hitems, _⟩ => ⟨items, hitems⟩,
      fun ⟨items, hitems⟩ => ⟨_, items, hitems, rfl⟩⟩
  | _ => simp [bind, Except.bind]

variable (host) in
lemma executed_isOk {run : RunSummary} :
    (∃ names, executedWithExpansions host run = .ok names) ↔ run.Expandable := by
  rw [RunSummary.Expandable, ← itemsOrEmpty_isOk, executedWithExpansions, RunSummary.generated]
  cases itemsOrEmpty run.record "phases" with
  | error e => simp [Except.map, bind, Except.bind]
  | ok items => simp [Except.map, bind, Except.bind]

variable (host) in
lemma familyExecutedUnion_isOk {family : List RunSummary} :
    (∃ union, familyExecutedUnion host family = .ok union) ↔ ∀ run ∈ family, run.Expandable := by
  rw [familyExecutedUnion]
  generalize (∅ : Finset String) = start
  induction family generalizing start with
  | nil => simp [pure, Except.pure]
  | cons run family ih =>
    rw [List.forall_mem_cons, ← executed_isOk host, List.foldlM_cons]
    cases hrun : executedWithExpansions host run with
    | error e => simp [Except.map, bind, Except.bind]
    | ok names => simpa [Except.map, bind, Except.bind] using ih (start ∪ names)

lemma familyStatus_isOk {family : List RunSummary} :
    (∃ status, familyStatus host spec family = .ok status) ↔
      (Green family → Declared spec ∧ ∀ run ∈ family, run.Expandable) := by
  rw [familyStatus]
  split_ifs with hfailed hlatest
  · exact ⟨fun _ h => absurd (h.unfailed.symm.trans hfailed) Bool.false_ne_true, fun _ => ⟨_, rfl⟩⟩
  · exact ⟨fun _ h => absurd h.latest hlatest, fun _ => ⟨_, rfl⟩⟩
  · have hgreen : Green family := ⟨Bool.not_eq_true _ ▸ hfailed, not_not.mp hlatest⟩
    simp only [bind_eq_ok, ← specPhaseNames_isOk host,
      ← familyExecutedUnion_isOk host]
    constructor
    · rintro ⟨_, names, hnames, union, hunion, -⟩ -
      exact ⟨⟨names, hnames⟩, union, hunion⟩
    · intro h
      obtain ⟨⟨names, hnames⟩, union, hunion⟩ := h hgreen
      exact ⟨_, names, hnames, union, hunion, rfl⟩

lemma firstDecisive_isOk {families : List (List RunSummary)} :
    (∃ verdict, firstDecisive host spec families = .ok verdict) ↔
      ∀ newer family older, families = newer ++ family :: older →
        (∀ other ∈ newer, familyStatus host spec other = .ok none) →
          ∃ status, familyStatus host spec family = .ok status := by
  induction families with
  | nil => simp [firstDecisive]
  | cons first families ih =>
    rw [firstDecisive]
    cases hfirst : familyStatus host spec first with
    | error e =>
      refine ⟨fun h => by simp [bind, Except.bind] at h, fun h => ?_⟩
      obtain ⟨status, hstatus⟩ := h [] first families rfl (by simp)
      simp [hfirst] at hstatus
    | ok status =>
      constructor
      · intro h newer family older hsplit hnewer
        cases newer with
        | nil =>
          obtain ⟨rfl, -⟩ := List.cons.inj hsplit
          exact ⟨status, hfirst⟩
        | cons other newer =>
          obtain ⟨rfl, htail⟩ := List.cons.inj hsplit
          obtain ⟨hother, hnewer⟩ := List.forall_mem_cons.mp hnewer
          obtain rfl := Except.ok.inj (hfirst.symm.trans hother)
          exact ih.mp h newer family older htail hnewer
      · intro h
        cases status with
        | some status => exact ⟨some status, rfl⟩
        | none =>
          refine ih.mpr fun newer family older hsplit hnewer => ?_
          refine h (first :: newer) family older (by rw [hsplit, List.cons_append]) ?_
          exact List.forall_mem_cons.mpr ⟨hfirst, hnewer⟩

lemma isDefinitionChanged_isOk {runs : List RunSummary} :
    (∃ changed, isDefinitionChangedAfterRuns host spec runs = .ok changed) ↔
      Declared spec ∧ (specPhaseNames host spec ≠ .ok [] → (∃ run ∈ runs, run.ok = some true) →
        ∀ run ∈ runs, run.Expandable) := by
  rw [isDefinitionChangedAfterRuns, ← specPhaseNames_isOk host]
  cases hnames : specPhaseNames host spec with
  | error e => simp [bind, Except.bind]
  | ok names =>
    have hgreen : runs.all (·.ok ≠ some true) = true ↔ ¬ ∃ run ∈ runs, run.ok = some true := by
      simp
    simp only [bind, Except.bind, hgreen]
    split_ifs with hskip
    · refine ⟨fun _ => ⟨⟨names, rfl⟩, fun hne hsome => ?_⟩, fun _ => ⟨false, rfl⟩⟩
      rcases hskip with rfl | hnone
      · exact absurd rfl hne
      · exact absurd hsome hnone
    · obtain ⟨hne, hsome⟩ := not_or.mp hskip
      rw [not_not] at hsome
      rw [← familyExecutedUnion_isOk host]
      cases familyExecutedUnion host runs with
      | error e => simp [hne, hsome]
      | ok executed =>
        refine ⟨fun _ => ⟨⟨names, rfl⟩, fun _ _ => ⟨executed, rfl⟩⟩, fun _ => ?_⟩
        dsimp only
        split_ifs <;> exact ⟨_, rfl⟩

lemma currentRevision_isOk {digest : String} {runs : List RunSummary} :
    (∃ certifying, runsOfCurrentRevision host spec digest runs = .ok certifying) ↔
      (runs ≠ [] → (∀ run ∈ runs, run.workflowRevisionId = "") →
        Declared spec ∧ (specPhaseNames host spec ≠ .ok [] → (∃ run ∈ runs, run.ok = some true) →
          ∀ run ∈ runs, run.Expandable)) := by
  rw [runsOfCurrentRevision]
  by_cases hnil : runs = []
  · rw [if_pos hnil]
    exact ⟨fun _ hruns => absurd hnil hruns, fun _ => ⟨_, rfl⟩⟩
  rw [if_neg hnil]
  dsimp only
  by_cases hrecorded : runs.filter (·.workflowRevisionId ≠ "") ≠ []
  · rw [if_pos hrecorded]
    refine ⟨fun _ _ hall => absurd ?_ hrecorded, fun _ => ⟨_, rfl⟩⟩
    exact List.filter_eq_nil_iff.mpr fun run hrun => by simp [hall run hrun]
  · have hall : ∀ run ∈ runs, run.workflowRevisionId = "" := by
      intro run hrun
      simpa using List.filter_eq_nil_iff.mp (not_not.mp hrecorded) run hrun
    rw [if_neg hrecorded, ← isDefinitionChanged_isOk]
    cases isDefinitionChangedAfterRuns host spec runs with
    | error e => simpa [bind, Except.bind, hnil] using hall
    | ok changed =>
      refine ⟨fun _ _ _ => ⟨changed, rfl⟩, fun _ => ?_⟩
      cases changed with
      | true => exact ⟨([], true), rfl⟩
      | false => exact ⟨(runs, false), rfl⟩

lemma deriveStatus_ordinary {digest : String} {now : Instant} {window : ℤ}
    {runs : List RunSummary} (hspec : Ordinary spec) :
    (∃ status, deriveStatus host spec digest now window runs = .ok status) ↔
      ∃ current, runsOfCurrentRevision host spec digest runs = .ok current ∧
        (isCurrentlyRunning now window current.1 = false →
          (current.1.getLast?.map (·.awaiting)).getD false = false →
            ∃ verdict, newestDecisiveFamilyStatus host spec current.1 = .ok verdict) := by
  have hauthored : ¬ (spec.status = "draft" ∨ spec.status = "tombstoned") :=
    not_or.mpr ⟨hspec.notDraft, hspec.notTombstoned⟩
  rw [deriveStatus, if_neg hauthored, if_neg (not_not.mpr hspec.notSuperseded), hspec.once,
    if_neg Bool.false_ne_true]
  cases runsOfCurrentRevision host spec digest runs with
  | error e => simp [bind, Except.bind]
  | ok current =>
  obtain ⟨certifying, changed⟩ := current
  simp only [bind, Except.bind, pure, Except.pure, Except.ok.injEq, exists_eq_left']
  cases isCurrentlyRunning now window certifying with
  | true => simp
  | false =>
    cases (certifying.getLast?.map (·.awaiting)).getD false with
    | true => simp
    | false =>
      cases newestDecisiveFamilyStatus host spec certifying with
      | error e => simp
      | ok verdict =>
        refine ⟨fun _ _ _ => ⟨verdict, rfl⟩, fun _ => ?_⟩
        cases verdict with
        | some decisive => exact ⟨decisive, rfl⟩
        | none =>
          simp only [Bool.false_eq_true, if_false]
          split_ifs <;> exact ⟨_, rfl⟩

/-- `derive_status` returns exactly where all it reads can be read; of a spec that is not ordinary
it reads no run. -/
theorem deriveStatus_isOk {digest : String} {now : Instant} {window : ℤ}
    {runs : List RunSummary} :
    (∃ status, deriveStatus host spec digest now window runs = .ok status) ↔
      (Ordinary spec → Legible host spec digest now window runs) := by
  by_cases hspec : Ordinary spec
  · simp only [hspec, forall_const, deriveStatus_ordinary hspec, newestDecisiveFamilyStatus,
      firstDecisive_isOk, familyStatus_isOk]
    constructor
    · rintro ⟨current, hcurrent, hscan⟩
      refine ⟨currentRevision_isOk.mp ⟨current, hcurrent⟩, fun certifying changed hcertifying => ?_⟩
      obtain rfl := Except.ok.inj (hcurrent.symm.trans hcertifying)
      exact hscan
    · intro h
      obtain ⟨current, hcurrent⟩ := currentRevision_isOk.mpr h.unrecorded
      exact ⟨current, hcurrent, h.scanned current.1 current.2 hcurrent⟩
  · refine ⟨fun _ h => absurd h hspec, fun _ => ?_⟩
    rw [deriveStatus]
    by_cases hauthored : spec.status = "draft" ∨ spec.status = "tombstoned"
    · exact ⟨_, if_pos hauthored⟩
    by_cases hsuperseded : spec.supersededBy.getD "" ≠ ""
    · exact ⟨_, by rw [if_neg hauthored, if_pos hsuperseded]⟩
    by_cases hrepeatable : spec.repeatable = true
    · exact ⟨_, by rw [if_neg hauthored, if_neg hsuperseded, if_pos hrepeatable]⟩
    obtain ⟨hdraft, htombstoned⟩ := not_or.mp hauthored
    exact absurd ⟨hdraft, htombstoned, not_not.mp hsuperseded, by simpa using hrepeatable⟩ hspec

/-- The index survives a directory, `load_runs` returning the runs of its objects in the order of
their times and `derive_status` a status, exactly where its files are harmless and their runs
legible. -/
theorem index_survives_iff (specDir : Option (List LedgerFile)) (digest : String) (now : Instant)
    (window : ℤ) :
    (∃ runs, loadRuns host strptime specDir = .ok runs ∧
      Indexes host strptime (specDir.getD []) runs ∧
      ∃ status, deriveStatus host spec digest now window runs = .ok status) ↔
    (∀ file ∈ specDir.getD [], Harmless host strptime file) ∧
      (Ordinary spec → Legible host spec digest now window
        (runsOf host strptime (specDir.getD []))) := by
  simp only [loadRuns_eq_ok, deriveStatus_isOk]
  constructor
  · rintro ⟨runs, ⟨hfiles, rfl⟩, -, hlegible⟩
    exact ⟨hfiles, hlegible⟩
  · rintro ⟨hfiles, hlegible⟩
    exact ⟨_, ⟨hfiles, rfl⟩, indexes_runsOf hfiles, hlegible⟩

end RunIndex

/-! ### Ledgers that are not survived -/

def binaryFile : LedgerFile := ⟨"binary", "results/ship/binary.json", some ⟨#[255]⟩⟩

def countedText : String := "\x7b\"phases\": 7\x7d"

def countedFile : LedgerFile := ⟨"counted", "results/ship/counted.json", some countedText.toUTF8⟩

def earlyText : String := "\x7b\"ended_at\": \"0001-01-01T00:00:00+01:00\"\x7d"

/-- A ledger whose end is in the year 0 of UTC. -/
def earlyFile : LedgerFile := ⟨"early", "results/ship/early.json", some earlyText.toUTF8⟩

/-- The decoder on these two ledgers, and the moment of the second. -/
def ledgerHost : Host :=
  { shipHost with
    loads := fun text =>
      if text = countedText then .ok (.obj [("phases", .int 7)])
      else if text = earlyText then
        .ok (.obj [("ended_at", .str "0001-01-01T00:00:00+01:00")])
      else .error ("JSONDecodeError", "Expecting value: line 1 column 1 (char 0)")
    fromisoformat := fun text =>
      if text = "0001-01-01T00:00:00+01:00" then some ⟨-3600000000, true⟩ else none }

lemma loadRuns_single {host : Host} {strptime : Strptime} {file : LedgerFile} {e : String}
    (h : loadRun host strptime file = .error e) :
    loadRuns host strptime (some [file]) = .error e := by
  simp [loadRuns, sortBy, h, bind, Except.bind]

lemma decoded (text : String) : String.fromUTF8? text.toUTF8 = some text := by
  exact dif_pos text.isValidUTF8

/-- Loading any of the three raises. -/
theorem ledgers_not_survived :
    loadRuns ledgerHost (fun _ _ => none) (some [binaryFile]) = .error "UnicodeDecodeError" ∧
      loadRuns ledgerHost (fun _ _ => none) (some [countedFile]) = .error "TypeError" ∧
      loadRuns ledgerHost (fun _ _ => none) (some [earlyFile]) = .error "OverflowError" := by
  refine ⟨loadRuns_single ?_, loadRuns_single ?_, loadRuns_single ?_⟩
  · have hbytes : String.fromUTF8? ⟨#[255]⟩ = none := by decide
    rw [loadRun, readLedger, binaryFile]
    dsimp only
    rw [hbytes]
    rfl
  · rw [loadRun, readLedger, countedFile]
    dsimp only
    rw [decoded]
    rfl
  · rw [loadRun, readLedger, earlyFile]
    dsimp only
    rw [decoded]
    rfl

end AgenticDynamics.Experiment.SpecStatus
