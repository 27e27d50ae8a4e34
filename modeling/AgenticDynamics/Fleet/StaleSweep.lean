import AgenticDynamics.Library.Accumulate
import AgenticDynamics.Library.StableSort
import AgenticDynamics.Fleet.JobLifecycle

/-!
# Sweeping stale jobs

A job whose observer died stays on the board as launching, queued or running. The sweep ends each
such job that is old enough: as completed where a ledger records success, and as failed otherwise.
The ledger is the one that the record names; a record that names none gets the newest ledger of its
spec, whichever run wrote it.

Times are rational numbers.
-/

namespace AgenticDynamics.Fleet

open Python StableSort

/-! ### Ledgers -/

structure LedgerRun where
  spec : String
  endedAt : ℚ

structure LedgerFile where
  path : String
  mtime : ℚ
  /-- None where the file cannot be read or is no UTF-8. -/
  text : Option String
  run : Option LedgerRun

structure LedgerDisk where
  /-- The regular file at a path. -/
  file : String → Option LedgerFile
  /-- The files `*.json` in the directory of this name under `workflows/`, as they are listed. -/
  ledgers : String → List LedgerFile

def LedgerDisk.Holds (disk : LedgerDisk) (ledger : LedgerFile) : Prop :=
  (∃ path, disk.file path = some ledger) ∨ ∃ stem, ledger ∈ disk.ledgers stem

/-- `Path(text).name`. -/
def pathName (text : String) : List Char :=
  ((text.toList.splitOn '/').filter fun part => part ≠ [] ∧ part ≠ ['.']).getLast?.getD []

/-- `Path(text).stem`. -/
def pathStem (text : String) : String :=
  let name := pathName text
  let suffix := name.reverse.takeWhile (· ≠ '.')
  let dot := name.length - suffix.length - 1
  String.ofList (if '.' ∈ name ∧ suffix ≠ [] ∧ 0 < dot then name.take dot else name)

example : pathStem "workflows/repository/x.yaml" = "x" := by decide

/-- `root / rest`. -/
def joinPath (root rest : String) : String :=
  if startsWith rest "/" then rest else root ++ "/" ++ rest

section Sweep

variable (host : Runtime) (root : String) (disk : LedgerDisk)

def resolveLedgerPath (raw : String) : Option LedgerFile :=
  if raw = "" then none
  else
    match disk.file raw with
    | some ledger => some ledger
    | none        =>
      if startsWith raw "/repo/" then
        disk.file (joinPath root (String.ofList (raw.toList.drop "/repo/".length)))
      else none

def latestSpecLedger (spec : Option Json) : Option LedgerFile :=
  match spec with
  | none      => none
  | some spec =>
    if spec.truthy then
      (sortBy (fun ledger => -ledger.mtime) (disk.ledgers (pathStem (spec.text host)))).head?
    else none

def consulted (job : Dict Json) : Option LedgerFile :=
  let raw := (Json.orElse (Dict.get? "ledger" job) (.str "")).text host
  match resolveLedgerPath root disk raw with
  | some ledger => some ledger
  | none        => latestSpecLedger host disk (Dict.get? "spec" job)

/-- What a ledger records; what is not a `ValueError` of the parser is raised. -/
def recordsOk (ledger : LedgerFile) : Except String Bool :=
  match ledger.text with
  | none      => .ok false
  | some text =>
    match host.loads text with
    | .ok (.obj data)    => .ok ((Dict.get? "ok" data).any Json.truthy)
    | .ok _              => .ok false
    | .error (typeName, _) =>
      if typeName ∈ ["JSONDecodeError", "ValueError"] then .ok false else .error typeName

/-- The ledger that a job is judged by records success. -/
def judgedOk (job : Dict Json) : Except String Bool :=
  match consulted host root disk job with
  | some ledger => recordsOk host ledger
  | none        => .ok false

/-! ### Stale rows -/

structure SweepClock where
  now : ℚ
  /-- `time.strftime('%Y-%m-%d', time.gmtime(now))`. -/
  date : String
  /-- The reading with which `record_job_status` writes the record of a job. -/
  stamp : String → Json
  /-- `f"{hours:.1f}"`. -/
  fixed : PyFloat → String

/-- `now - ts`. -/
def ageOf (now : ℚ) : PyFloat → PyFloat
  | .finite ts    => .finite (now - ts)
  | .inf negative => .inf (!negative)
  | .nan          => .nan

/-- `not age <= stale_after_s`. -/
def isStale (staleAfter : ℚ) : PyFloat → Bool
  | .finite age   => staleAfter < age
  | .inf negative => !negative
  | .nan          => true

/-- `age / 3600.0`. -/
def inHours : PyFloat → PyFloat
  | .finite age => .finite (age / 3600)
  | age         => age

/-- `round(hours, 1)`. -/
def round1 : PyFloat → PyFloat
  | .finite hours => .finite (roundHalfEven (hours * 10) / 10)
  | hours         => hours

/-- `float(job.get("ts") or 0)`. -/
def jobTs (job : Dict Json) : Except String PyFloat :=
  (Json.orElse (Dict.get? "ts" job) (.int 0)).toFloat host

structure StaleEntry where
  jobId : Option Json
  status : String
  ageHours : PyFloat
  spec : Option Json
  disposition : Option String := none

structure SweepReport where
  examined : ℕ := 0
  stale : List StaleEntry := []
  reconciled : List StaleEntry := []
  applied : Bool

variable (clock : SweepClock) (staleAfter : ℚ)

/-- `disposition` and `reason`. -/
def sweepVerdict (job : Dict Json) (age : PyFloat) (ok : Bool) : Verdict where
  completed := ok
  now := .float (.finite clock.now)
  reason :=
    match ok, consulted host root disk job with
    | true, some ledger => "reconciled from ledger " ++ ledger.path ++ " (ok)"
    | _, _              =>
      "stale: no terminal transition after " ++ clock.fixed (inHours age) ++ "h (swept " ++
        clock.date ++ ")"

/-- The fields that a sweep adds to the record of a job. -/
def sweepFields (verdict : Verdict) (job : Dict Json) : Dict Json :=
  [("swept_at", verdict.now), ("stale_ts", (Dict.get? "ts" job).getD .null),
    ("error", .str verdict.reason)]

/-- The body of the loop in `sweep_stale_jobs`. -/
def sweepJob (job : Dict Json) (report : SweepReport) (s : FleetStore) :
    Except String (SweepReport × FleetStore) := do
  let status := statusText host job
  if status ∉ nonTerminal then .ok (report, s)
  else
    let report := { report with examined := report.examined + 1 }
    let age := ageOf clock.now (← jobTs host job)
    if isStale staleAfter age = false then .ok (report, s)
    else
      let entry : StaleEntry :=
        { jobId := Dict.get? "job_id" job, status, ageHours := round1 (inHours age)
          spec := Dict.get? "spec" job }
      let report := { report with stale := report.stale ++ [entry] }
      if report.applied = false then .ok (report, s)
      else
        let verdict := sweepVerdict host root disk clock job age (← judgedOk host root disk job)
        match Dict.get? "job_id" job with
        | some (.str jobId) =>
          let s ← recordJobStatus jobId verdict.disposition (clock.stamp jobId)
            (sweepFields verdict job) s
          .ok ({ report with
            reconciled := report.reconciled ++
              [{ entry with disposition := some verdict.disposition }] }, s)
        | _ => .error "DataError"

/-- The loop: what it has written stays written where it raises. -/
def sweepJobs : List (Dict Json) → SweepReport → FleetStore → Except String SweepReport × FleetStore
  | [],          report, s => (.ok report, s)
  | job :: jobs, report, s =>
    match sweepJob host root disk clock staleAfter job report s with
    | .ok (report, s) => sweepJobs jobs report s
    | .error e        => (.error e, s)

/-- The record that a value of the board is. -/
def asRecord : Json → Except String (Dict Json)
  | .obj job => .ok job
  | _        => .error "AttributeError"

/-- The number that a record is sorted by. -/
def sortTs (job : Dict Json) : Option ℚ :=
  match (Dict.get? "ts" job).getD (.int 0) with
  | .int n             => some n
  | .bool b            => some (if b then 1 else 0)
  | .float (.finite q) => some q
  | _                  => none

def jobRecords (s : FleetStore) : Except String (List (Dict Json)) := do
  let jobs ← (s.jobs.filterMap Prod.snd).mapM asRecord
  if jobs.length ≤ 1 ∨ ∀ job ∈ jobs, (sortTs job).isSome then
    .ok (sortBy (fun job => -(sortTs job).getD 0) jobs)
  else .error "TypeError"

def sweepStaleJobs (apply : Bool) (s : FleetStore) : Except String SweepReport × FleetStore :=
  match jobRecords s with
  | .ok jobs => sweepJobs host root disk clock staleAfter jobs { applied := apply } s
  | .error e => (.error e, s)

/-! ### What a sweep leaves -/

/-- A record that has not ended and is old enough. -/
def StaleRow (s : FleetStore) (jobId : String) (job : Dict Json) : Prop :=
  Dict.get? jobId s.jobs = some (some (.obj job)) ∧ statusText host job ∈ nonTerminal ∧
    ∃ ts, jobTs host job = .ok ts ∧ isStale staleAfter (ageOf clock.now ts) = true

/-- A run of the job's spec that ended after the job was submitted wrote a ledger of success. -/
def OwnEvidence (submitted : String → ℚ) (jobId : String) (job : Dict Json) : Prop :=
  ∃ ledger, disk.Holds ledger ∧ recordsOk host ledger = .ok true ∧
    ∃ run, ledger.run = some run ∧ Dict.get? "spec" job = some (.str run.spec) ∧
      submitted jobId < run.endedAt

/-- Stale jobs are ended, as completed on their own evidence only; no other record changes. -/
structure SweepKept (submitted : String → ℚ) (s t : FleetStore) : Prop where
  completed : ∀ jobId job, StaleRow host clock staleAfter s jobId job →
    boardStatus host jobId t = "completed" → OwnEvidence host disk submitted jobId job
  failed : ∀ jobId job, StaleRow host clock staleAfter s jobId job →
    boardStatus host jobId t ≠ "completed" → boardStatus host jobId t = "failed"
  untouched : ∀ jobId, (∀ job, ¬ StaleRow host clock staleAfter s jobId job) →
    Dict.get? jobId t.jobs = Dict.get? jobId s.jobs

/-- The ledger that the job is judged by can be judged, and does not record success unless the
job's own evidence does. -/
def FairlyJudged (submitted : String → ℚ) (jobId : String) (job : Dict Json) : Prop :=
  ∃ ok, judgedOk host root disk job = .ok ok ∧
    (ok = true → OwnEvidence host disk submitted jobId job)

end Sweep

/-- A board as `record_job_launch` and `record_job_status` write it: each record stands under the
id that it names, and has a reading of the clock. A text that does not parse is no record. -/
structure Written (s : FleetStore) : Prop where
  fields : (s.jobs.map Prod.fst).Nodup
  rows : ∀ jobId value, (jobId, some value) ∈ s.jobs → ∃ job ts, value = .obj job ∧
    Dict.get? "job_id" job = some (.str jobId) ∧
    Dict.get? "ts" job = some (.float (.finite ts))

section Runs

variable {host : Runtime} {root : String} {disk : LedgerDisk} {clock : SweepClock}
  {staleAfter : ℚ} {s t : FleetStore} {jobId : String} {job : Dict Json} {report : SweepReport}
  {submitted : String → ℚ}

/-! ### One row -/

variable (host clock staleAfter) in
def Due (job : Dict Json) : Prop :=
  statusText host job ∈ nonTerminal ∧
    ∃ ts, jobTs host job = .ok ts ∧ isStale staleAfter (ageOf clock.now ts) = true

/-- A record of the board, under the id that it names. -/
structure Row (host : Runtime) (s : FleetStore) (jobId : String) (job : Dict Json) : Prop where
  stands : Dict.get? jobId s.jobs = some (some (.obj job))
  names : Dict.get? "job_id" job = some (.str jobId)
  dated : ∃ ts, jobTs host job = .ok ts

variable (host root disk clock) in
/-- The record of a job that the sweep has ended. -/
def sweptRecord (jobId : String) (job : Dict Json) (ts : PyFloat) (ok : Bool) : Dict Json :=
  let verdict := sweepVerdict host root disk clock job (ageOf clock.now ts) ok
  nextRecord jobId verdict.disposition (clock.stamp jobId) (sweepFields verdict job) job

lemma sweepJob_idle (hrow : Row host s jobId job) (hdue : ¬ Due host clock staleAfter job) :
    ∃ report', report'.applied = report.applied ∧
      sweepJob host root disk clock staleAfter job report s = .ok (report', s) := by
  obtain ⟨ts, hts⟩ := hrow.dated
  rw [sweepJob]
  by_cases hstatus : statusText host job ∉ nonTerminal
  · exact ⟨report, rfl, by rw [if_pos hstatus]⟩
  · have hfresh : isStale staleAfter (ageOf clock.now ts) = false := by
      by_contra hstale
      exact hdue ⟨not_not.mp hstatus, ts, hts, by simpa using hstale⟩
    refine ⟨{ report with examined := report.examined + 1 }, rfl, ?_⟩
    rw [if_neg hstatus, hts]
    simp only [bind, Except.bind, if_pos hfresh]

lemma sweepJob_raised (happly : report.applied = true) (hdue : Due host clock staleAfter job)
    {e : String} (he : judgedOk host root disk job = .error e) :
    sweepJob host root disk clock staleAfter job report s = .error e := by
  obtain ⟨hstatus, ts, hts, hstale⟩ := hdue
  rw [sweepJob, if_neg (not_not.mpr hstatus), hts]
  simp [bind, Except.bind, hstale, happly, he]

lemma sweepJob_ended (happly : report.applied = true) (hrow : Row host s jobId job)
    (hdue : Due host clock staleAfter job) {ok : Bool}
    (hok : judgedOk host root disk job = .ok ok) :
    ∃ report' ts, report'.applied = true ∧
      sweepJob host root disk clock staleAfter job report s =
        .ok (report', s.setJob jobId (sweptRecord host root disk clock jobId job ts ok)) := by
  obtain ⟨hstatus, ts, hts, hstale⟩ := hdue
  have hrecord (status : String) (fields : Dict Json) :
      recordJobStatus jobId status (clock.stamp jobId) fields s =
        .ok (s.setJob jobId (nextRecord jobId status (clock.stamp jobId) fields job)) := by
    rw [recordJobStatus, hrow.stands]
    rfl
  refine ⟨?report, ts, ?applied, ?run⟩
  case run =>
    rw [sweepJob, if_neg (not_not.mpr hstatus), hts]
    simp only [bind, Except.bind, hstale, happly, hok, hrow.names, hrecord, Bool.true_eq_false,
      if_false]
    rfl
  rfl

/-! ### The whole sweep -/

lemma boardStatus_of_stands {record : Dict Json}
    (h : Dict.get? jobId t.jobs = some (some (.obj record))) :
    boardStatus host jobId t = statusText host record := by
  rw [boardStatus, jobStatus, h]
  rfl

lemma status_sweptRecord (ts : PyFloat) (ok : Bool) :
    statusText host (sweptRecord host root disk clock jobId job ts ok) =
      if ok then "completed" else "failed" := by
  rw [sweptRecord]
  refine statusText_nextRecord ?_ ?_
  · simp [sweepFields]
  · cases ok <;> simp [sweepVerdict, Verdict.disposition]

lemma Row.setJob (hrow : Row host s jobId job) {other : String} (hne : other ≠ jobId)
    (record : Dict Json) : Row host (s.setJob other record) jobId job := by
  refine ⟨?_, hrow.names, hrow.dated⟩
  rw [FleetStore.setJob, Dict.get?_set, if_neg hne]
  exact hrow.stands

/-- What the loop leaves of a record: none that is not due is changed, and one that is due is ended
by its own ledger, unless the loop raises before. -/
lemma sweepJobs_spec {jobs : List (Dict Json)} (happly : report.applied = true)
    (hids : jobs.Pairwise fun a b => Dict.get? "job_id" a ≠ Dict.get? "job_id" b)
    (hrows : ∀ job ∈ jobs, ∃ jobId, Row host s jobId job)
    (ht : (sweepJobs host root disk clock staleAfter jobs report s).2 = t) :
    (∀ jobId, (∀ job ∈ jobs, Dict.get? "job_id" job = some (.str jobId) →
      ¬ Due host clock staleAfter job) → Dict.get? jobId t.jobs = Dict.get? jobId s.jobs) ∧
    ∀ job ∈ jobs, ∀ jobId, Row host s jobId job → Due host clock staleAfter job →
      (∃ ts ok, judgedOk host root disk job = .ok ok ∧ Dict.get? jobId t.jobs =
        some (some (.obj (sweptRecord host root disk clock jobId job ts ok)))) ∨
      Dict.get? jobId t.jobs = Dict.get? jobId s.jobs ∧
        ∃ other ∈ jobs, Due host clock staleAfter other ∧
          ∃ e, judgedOk host root disk other = .error e := by
  induction jobs generalizing report s with
  | nil =>
    subst ht
    exact ⟨fun _ _ => rfl, nofun⟩
  | cons first rest ih =>
    obtain ⟨firstId, hfirst⟩ := hrows first List.mem_cons_self
    obtain ⟨hfresh, hids⟩ := List.pairwise_cons.mp hids
    have hrest : ∀ job ∈ rest, ∀ jobId, Dict.get? "job_id" job = some (.str jobId) →
        firstId ≠ jobId := by
      rintro job hmem jobId hnames rfl
      exact hfresh job hmem (hfirst.names.trans hnames.symm)
    rw [sweepJobs] at ht
    by_cases hdue : Due host clock staleAfter first
    · cases hjudged : judgedOk host root disk first with
      | error e =>
        rw [sweepJob_raised happly hdue hjudged] at ht
        subst ht
        exact ⟨fun _ _ => rfl, fun _ _ _ _ _ =>
          .inr ⟨rfl, first, List.mem_cons_self, hdue, e, hjudged⟩⟩
      | ok ok =>
        obtain ⟨report', ts, happly', hjob⟩ := sweepJob_ended happly hfirst hdue hjudged
        rw [hjob] at ht
        have hrows' : ∀ job ∈ rest, ∃ jobId, Row host (s.setJob firstId
            (sweptRecord host root disk clock firstId first ts ok)) jobId job := by
          intro job hmem
          obtain ⟨jobId, hrow⟩ := hrows job (List.mem_cons_of_mem _ hmem)
          exact ⟨jobId, hrow.setJob (hrest job hmem jobId hrow.names) _⟩
        have hother {jobId : String} (hne : firstId ≠ jobId) : Dict.get? jobId (s.setJob firstId
            (sweptRecord host root disk clock firstId first ts ok)).jobs =
              Dict.get? jobId s.jobs := by
          rw [FleetStore.setJob, Dict.get?_set, if_neg hne]
        obtain ⟨huntouched, hended⟩ := ih happly' hids hrows' ht
        constructor
        · intro jobId hnone
          have hne : firstId ≠ jobId := by
            rintro rfl
            exact hnone first List.mem_cons_self hfirst.names hdue
          rw [huntouched jobId fun job hmem => hnone job (List.mem_cons_of_mem _ hmem), hother hne]
        · intro job hmem jobId hrow hjobDue
          rcases List.mem_cons.mp hmem with rfl | hmem
          · obtain rfl : firstId = jobId := by
              simpa using hfirst.names.symm.trans hrow.names
            refine .inl ⟨ts, ok, hjudged, ?_⟩
            rw [huntouched firstId fun job hmem hnames _ => hrest job hmem firstId hnames rfl,
              FleetStore.setJob, Dict.get?_set, if_pos rfl]
          · have hne := hrest job hmem jobId hrow.names
            rcases hended job hmem jobId (hrow.setJob hne _) hjobDue with
              hdone | ⟨hkept, other, hin, hraised⟩
            · exact .inl hdone
            · exact .inr ⟨hkept.trans (hother hne), other, List.mem_cons_of_mem _ hin, hraised⟩
    · obtain ⟨report', happly', hjob⟩ :=
        @sweepJob_idle host root disk clock staleAfter s firstId first report hfirst hdue
      rw [hjob] at ht
      obtain ⟨huntouched, hended⟩ := ih (happly'.trans happly) hids
        (fun job hmem => hrows job (List.mem_cons_of_mem _ hmem)) ht
      constructor
      · intro jobId hnone
        exact huntouched jobId fun job hmem => hnone job (List.mem_cons_of_mem _ hmem)
      · intro job hmem jobId hrow hjobDue
        rcases List.mem_cons.mp hmem with rfl | hmem
        · exact absurd hjobDue hdue
        · rcases hended job hmem jobId hrow hjobDue with hdone | ⟨hkept, other, hin, hraised⟩
          · exact .inl hdone
          · exact .inr ⟨hkept, other, List.mem_cons_of_mem _ hin, hraised⟩

/-! ### The board that is swept -/

lemma records_of_rows {rows : Dict JobRecord} (hfields : (rows.map Prod.fst).Nodup)
    (hrows : ∀ jobId value, (jobId, some value) ∈ rows → ∃ job ts, value = .obj job ∧
      Dict.get? "job_id" job = some (.str jobId) ∧
      Dict.get? "ts" job = some (.float (.finite ts))) :
    ∃ jobs, (rows.filterMap Prod.snd).mapM asRecord = .ok jobs ∧
      (∀ job, job ∈ jobs ↔ ∃ jobId, (jobId, some (.obj job)) ∈ rows) ∧
      jobs.Pairwise fun a b => Dict.get? "job_id" a ≠ Dict.get? "job_id" b := by
  induction rows with
  | nil => exact ⟨[], rfl, by simp, .nil⟩
  | cons row rows ih =>
    obtain ⟨hfresh, hfields⟩ := List.nodup_cons.mp hfields
    obtain ⟨jobs, hjobs, hmem, hids⟩ :=
      ih hfields fun jobId value hrow => hrows jobId value (List.mem_cons_of_mem _ hrow)
    obtain ⟨field, entry⟩ := row
    cases entry with
    | none => exact ⟨jobs, hjobs, by simpa using hmem, hids⟩
    | some value =>
      obtain ⟨job, ts, rfl, hname, -⟩ := hrows field value List.mem_cons_self
      refine ⟨job :: jobs, ?_, ?_, List.pairwise_cons.mpr ⟨?_, hids⟩⟩
      · change (Json.obj job :: rows.filterMap Prod.snd).mapM asRecord = _
        rw [List.mapM_cons, hjobs]
        rfl
      · intro other
        simp only [List.mem_cons, hmem, Prod.mk.injEq, Option.some.injEq, Json.obj.injEq]
        constructor
        · rintro (rfl | ⟨jobId, hrow⟩)
          · exact ⟨field, .inl ⟨rfl, rfl⟩⟩
          · exact ⟨jobId, .inr hrow⟩
        · rintro ⟨jobId, ⟨-, rfl⟩ | hrow⟩
          · exact .inl rfl
          · exact .inr ⟨jobId, hrow⟩
      · intro other hother hsame
        obtain ⟨otherField, hrow⟩ := (hmem other).mp hother
        obtain ⟨_, _, heq, hotherName, -⟩ := hrows otherField _ (List.mem_cons_of_mem _ hrow)
        cases heq
        have hfield : field = otherField := by simpa using hname.symm.trans (hsame.trans hotherName)
        exact hfresh (List.mem_map.mpr ⟨_, hrow, hfield.symm⟩)

lemma Written.row (hwritten : Written s) {value : Json}
    (hmem : (jobId, some value) ∈ s.jobs) : ∃ job, value = .obj job ∧ Row host s jobId job := by
  obtain ⟨job, ts, rfl, hnames, hts⟩ := hwritten.rows jobId value hmem
  refine ⟨job, rfl, ?_, hnames, ?_⟩
  · refine Dict.get?_of_mem hmem fun kv hkv hkey => ?_
    obtain ⟨_, _⟩ := kv
    obtain rfl := hkey
    exact List.inj_on_of_nodup_map hwritten.fields hkv hmem rfl ▸ rfl
  · rw [jobTs, hts, Json.orElse]
    split_ifs
    · exact ⟨.finite ts, rfl⟩
    · have hzero : floatOfInt 0 = some 0 := by decide +kernel
      exact ⟨.finite 0, by rw [Json.toFloat, hzero]⟩

lemma Written.jobRecords (hwritten : Written s) : ∃ jobs, jobRecords s = .ok jobs ∧
    (∀ job, job ∈ jobs ↔ ∃ jobId, (jobId, some (.obj job)) ∈ s.jobs) ∧
    jobs.Pairwise fun a b => Dict.get? "job_id" a ≠ Dict.get? "job_id" b := by
  obtain ⟨jobs, hjobs, hmem, hids⟩ := records_of_rows hwritten.fields hwritten.rows
  have hdated : ∀ job ∈ jobs, (sortTs job).isSome := by
    intro job hjob
    obtain ⟨jobId, hrow⟩ := (hmem job).mp hjob
    obtain ⟨_, ts, heq, -, hts⟩ := hwritten.rows jobId _ hrow
    cases heq
    rw [sortTs, hts]
    rfl
  refine ⟨sortBy (fun job => -(sortTs job).getD 0) jobs, ?_, ?_, ?_⟩
  · rw [Fleet.jobRecords, hjobs]
    exact if_pos (.inr hdated)
  · intro job
    rw [mem_sortBy, hmem]
  · exact ((sortBy_perm _ jobs).pairwise_iff fun h => h.symm).mpr hids

lemma staleRow_iff (hwritten : Written s) :
    StaleRow host clock staleAfter s jobId job ↔
      (jobId, some (.obj job)) ∈ s.jobs ∧ Row host s jobId job ∧ Due host clock staleAfter job := by
  constructor
  · rintro ⟨hstands, hdue⟩
    have hmem := Dict.mem_of_get? hstands
    obtain ⟨_, heq, hrow⟩ := @Written.row host s jobId hwritten _ hmem
    cases heq
    exact ⟨hmem, hrow, hdue⟩
  · rintro ⟨-, hrow, hdue⟩
    exact ⟨hrow.stands, hdue⟩

/-- A sweep keeps to the evidence exactly if every stale job is judged by a ledger that can be
judged, and that records success only where the job's own evidence does. -/
theorem sweep_kept_iff (hwritten : Written s) :
    SweepKept host disk clock staleAfter submitted s
        (sweepStaleJobs host root disk clock staleAfter true s).2 ↔
      ∀ jobId job, StaleRow host clock staleAfter s jobId job →
        FairlyJudged host root disk submitted jobId job := by
  obtain ⟨jobs, hjobs, hmem, hids⟩ := hwritten.jobRecords
  have hrows : ∀ job ∈ jobs, ∃ jobId, Row host s jobId job := by
    intro job hjob
    obtain ⟨jobId, hin⟩ := (hmem job).mp hjob
    obtain ⟨_, heq, hrow⟩ := @Written.row host s jobId hwritten _ hin
    cases heq
    exact ⟨jobId, hrow⟩
  have hsweep : sweepStaleJobs host root disk clock staleAfter true s =
      sweepJobs host root disk clock staleAfter jobs { applied := true } s := by
    rw [sweepStaleJobs, hjobs]
  rw [hsweep]
  obtain ⟨huntouched, hended⟩ := @sweepJobs_spec host root disk clock staleAfter s _
    { applied := true } jobs rfl hids hrows rfl
  have hstatus {jobId : String} {job : Dict Json} {t : FleetStore} {ts : PyFloat} {ok : Bool}
      (h : Dict.get? jobId t.jobs =
        some (some (.obj (sweptRecord host root disk clock jobId job ts ok)))) :
      boardStatus host jobId t = if ok then "completed" else "failed" := by
    rw [boardStatus_of_stands h, status_sweptRecord]
  constructor
  · intro hkept jobId job hstale
    obtain ⟨hin, hrow, hdue⟩ := (staleRow_iff hwritten).mp hstale
    rcases hended job ((hmem job).mpr ⟨jobId, hin⟩) jobId hrow hdue with
      ⟨ts, ok, hjudged, hswept⟩ | ⟨hsame, -⟩
    · refine ⟨ok, hjudged, ?_⟩
      rintro rfl
      exact hkept.completed jobId job hstale (hstatus hswept)
    · -- the loop raised before: the job is neither completed nor failed
      have hbefore := @boardStatus_of_stands host _ jobId job (hsame.trans hrow.stands)
      have hopen : statusText host job ≠ "completed" ∧ statusText host job ≠ "failed" := by
        constructor <;> intro heq <;> exact absurd (heq ▸ hdue.1) (by decide)
      exact absurd (hbefore ▸ hkept.failed jobId job hstale (hbefore ▸ hopen.1)) hopen.2
  · intro hfair
    have hdone {jobId : String} {job : Dict Json}
        (hstale : StaleRow host clock staleAfter s jobId job) : ∃ ts ok,
          judgedOk host root disk job = .ok ok ∧ Dict.get? jobId (sweepJobs host root disk clock
            staleAfter jobs { applied := true } s).2.jobs =
              some (some (.obj (sweptRecord host root disk clock jobId job ts ok))) := by
      obtain ⟨hin, hrow, hdue⟩ := (staleRow_iff hwritten).mp hstale
      rcases hended job ((hmem job).mpr ⟨jobId, hin⟩) jobId hrow hdue with
        hdone | ⟨-, other, hother, hotherDue, e, he⟩
      · exact hdone
      · obtain ⟨otherId, hotherIn⟩ := (hmem other).mp hother
        obtain ⟨_, heq, hotherRow⟩ := @Written.row host s otherId hwritten _ hotherIn
        cases heq
        obtain ⟨ok, hok, -⟩ := hfair otherId other
          ((staleRow_iff hwritten).mpr ⟨hotherIn, hotherRow, hotherDue⟩)
        rw [hok] at he
        cases he
    constructor
    · intro jobId job hstale hcompleted
      obtain ⟨ts, ok, hjudged, hswept⟩ := hdone hstale
      obtain ⟨ok', hjudged', hevidence⟩ := hfair jobId job hstale
      rw [hjudged] at hjudged'
      cases hjudged'
      rw [hstatus hswept] at hcompleted
      cases ok with
      | true => exact hevidence rfl
      | false => exact absurd hcompleted (by decide)
    · intro jobId job hstale hnot
      obtain ⟨ts, ok, -, hswept⟩ := hdone hstale
      rw [hstatus hswept] at hnot ⊢
      cases ok with
      | true => exact absurd rfl hnot
      | false => rfl
    · intro jobId hnone
      refine huntouched jobId fun job hjob hnames hdue => ?_
      obtain ⟨otherId, hin⟩ := (hmem job).mp hjob
      obtain ⟨_, heq, hrow⟩ := @Written.row host s otherId hwritten _ hin
      cases heq
      obtain rfl : otherId = jobId := by simpa using hrow.names.symm.trans hnames
      exact hnone job ⟨hrow.stands, hdue⟩

end Runs

/-! ### Boards at hand -/

def ledgerHost : Runtime where
  loads text :=
    if text = "\x7b\"ok\": true\x7d" then .ok (.obj [("ok", .bool true)])
    else .error ("JSONDecodeError", "Expecting value: line 1 column 1 (char 0)")
  repr value := value.typeName
  upper := id
  lower := id

/-- A job that was launched at 100 and never heard of again. -/
def ghostJob : Dict Json :=
  [("job_id", .str "j1"), ("spec", .str "specs/x.yaml"), ("status", .str "launching"),
    ("ts", .float (.finite 100))]

def ghostBoard : FleetStore := { jobs := [("j1", some (.obj ghostJob))] }

def ghostLedger (endedAt : ℚ) : LedgerFile where
  path := "experiments/results/workflows/x/run.json"
  mtime := endedAt
  text := some "\x7b\"ok\": true\x7d"
  run := some ⟨"specs/x.yaml", endedAt⟩

def ghostDisk (endedAt : ℚ) : LedgerDisk where
  file _ := none
  ledgers stem := if stem = "x" then [ghostLedger endedAt] else []

def ghostClock : SweepClock where
  now := 100000
  date := "1970-01-02"
  stamp _ := .float (.finite 100000)
  fixed _ := "27.8"

lemma written_ghostBoard : Written ghostBoard := by
  refine ⟨by decide, fun jobId value hmem => ?_⟩
  obtain ⟨rfl, hvalue⟩ := Prod.mk.inj (List.mem_singleton.mp hmem)
  obtain rfl := Option.some.inj hvalue
  exact ⟨ghostJob, 100, rfl, rfl, rfl⟩

lemma ghost_stale : StaleRow ledgerHost ghostClock 21600 ghostBoard "j1" ghostJob :=
  ⟨rfl, by decide, .finite 100, rfl, by decide +kernel⟩

lemma ghost_judged (endedAt : ℚ) :
    judgedOk ledgerHost "" (ghostDisk endedAt) ghostJob = .ok true := by
  have hledger : consulted ledgerHost "" (ghostDisk endedAt) ghostJob =
      some (ghostLedger endedAt) := by
    have hstem : pathStem "specs/x.yaml" = "x" := by decide
    have hspec : Dict.get? "spec" ghostJob = some (.str "specs/x.yaml") := rfl
    have hnamed : resolveLedgerPath "" (ghostDisk endedAt)
        ((Json.orElse (Dict.get? "ledger" ghostJob) (.str "")).text ledgerHost) = none := rfl
    rw [consulted, hnamed, hspec]
    simp [latestSpecLedger, Json.truthy, Json.text, hstem, ghostDisk, sortBy]
  rw [judgedOk, hledger]
  rfl

theorem own_ledger_kept : SweepKept ledgerHost (ghostDisk 150) ghostClock 21600
    (fun _ => 100) ghostBoard
    (sweepStaleJobs ledgerHost "" (ghostDisk 150) ghostClock 21600 true ghostBoard).2 := by
  refine (sweep_kept_iff written_ghostBoard).mpr fun jobId job hstale => ?_
  obtain ⟨rfl, hvalue⟩ := Prod.mk.inj (List.mem_singleton.mp (Dict.mem_of_get? hstale.1))
  cases hvalue
  refine ⟨true, ghost_judged 150, fun _ => ?_⟩
  exact ⟨ghostLedger 150, .inr ⟨"x", by simp [ghostDisk]⟩, rfl, _, rfl, rfl, by norm_num⟩

theorem earlier_ledger_completes : ¬ SweepKept ledgerHost (ghostDisk 50) ghostClock 21600
    (fun _ => 100) ghostBoard
    (sweepStaleJobs ledgerHost "" (ghostDisk 50) ghostClock 21600 true ghostBoard).2 := by
  intro hkept
  have hcompleted : boardStatus ledgerHost "j1" (sweepStaleJobs ledgerHost "" (ghostDisk 50)
      ghostClock 21600 true ghostBoard).2 = "completed" := by
    have hrow := ((staleRow_iff written_ghostBoard).mp ghost_stale).2.1
    have hjobs : jobRecords ghostBoard = .ok [ghostJob] := by
      simp [jobRecords, ghostBoard, asRecord, sortBy, bind, Except.bind, pure, Except.pure]
    obtain ⟨report, ts, -, hjob⟩ := @sweepJob_ended ledgerHost "" (ghostDisk 50) ghostClock 21600
      ghostBoard "j1" ghostJob { applied := true } rfl hrow ghost_stale.2 true (ghost_judged 50)
    rw [sweepStaleJobs, hjobs]
    simp only [sweepJobs, hjob]
    have hstands : Dict.get? "j1" (ghostBoard.setJob "j1" (sweptRecord ledgerHost ""
        (ghostDisk 50) ghostClock "j1" ghostJob ts true)).jobs = some (some (.obj (sweptRecord
          ledgerHost "" (ghostDisk 50) ghostClock "j1" ghostJob ts true))) := by
      rw [FleetStore.setJob, Dict.get?_set, if_pos rfl]
    rw [boardStatus_of_stands hstands, status_sweptRecord]
    rfl
  obtain ⟨ledger, hholds, -, run, hrun, -, hended⟩ := hkept.completed "j1" ghostJob ghost_stale
    hcompleted
  have hledger : ledger = ghostLedger 50 := by
    rcases hholds with ⟨path, hfile⟩ | ⟨stem, hmem⟩
    · cases hfile
    · simp only [ghostDisk] at hmem
      split_ifs at hmem
      · exact List.mem_singleton.mp hmem
      · cases hmem
  subst hledger
  cases hrun
  norm_num at hended

end AgenticDynamics.Fleet
