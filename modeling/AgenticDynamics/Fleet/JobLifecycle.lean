import AgenticDynamics.Fleet.FleetSafety

/-!
# The lifecycle of a job

A record of the board is read, changed and written back by a sender, by the threads of the consumer
and by sweeps of stale jobs, none of which looks at what it overwrites. The threads on one command
follow each other, so the order of their writes is the lifecycle; the others can come between.
-/

namespace AgenticDynamics.Fleet

open Python

/-! ### Sweeps -/

/-- What the clock and the ledgers say of a job that looks stale. -/
structure Verdict where
  completed : Bool
  now : Json
  reason : String

/-- A sweep that has judged a job by its snapshot; a write keeps the record that was read for it. -/
inductive SweepStage
  | judged (jobId : String) (verdict : Verdict) (staleTs : Json)
  | write (jobId : String) (verdict : Verdict) (staleTs : Json) (record : Dict Json)

/-- The fleet and the jobs that sweeps have in hand, each under a number of its own. -/
structure SweptFleet where
  fleet : FleetState := {}
  sweeps : ℕ → Option SweepStage := fun _ => none
  /-- The jobs that sweeps have recorded as ended. -/
  swept : List String := []

inductive SweepEvent
  | fleet (e : Event)
  /-- The snapshot is taken; the record stands in the field of this name. -/
  | judge (sweep : ℕ) (field : String) (verdict : Verdict)
  | read (sweep : ℕ)
  | write (sweep : ℕ) (ts : Json)

/-- `_NON_TERMINAL_JOB_STATES`. -/
def nonTerminal : List String := ["launching", "queued", "running"]

def Verdict.disposition (verdict : Verdict) : String :=
  if verdict.completed then "completed" else "failed"

section Steps

variable (consumer : Consumer)

/-- `sweep_stale_jobs` on a record of its snapshot, up to `record_job_status`. -/
def judge (verdict : Verdict) (record : JobRecord) : Option SweepStage :=
  match record with
  | some (.obj job) =>
    if statusText consumer.host job ∈ nonTerminal then
      match Dict.get? "job_id" job with
      | some (.str jobId) => some (.judged jobId verdict ((Dict.get? "ts" job).getD .null))
      | _                 => none
    else none
  | _ => none

/-- One step of the fleet or of a sweep; a step that cannot be taken changes nothing. -/
def SweptFleet.step (s : SweptFleet) : SweepEvent → SweptFleet
  | .fleet e => { s with fleet := s.fleet.step consumer e }
  | .judge sweep field verdict =>
    match (Dict.get? field s.fleet.store.jobs).bind (judge consumer verdict) with
    | some stage => { s with sweeps := Function.update s.sweeps sweep (some stage) }
    | none       => s
  | .read sweep =>
    match s.sweeps sweep with
    | some (.judged jobId verdict staleTs) =>
      match JobRecord.fields (Dict.get? jobId s.fleet.store.jobs) with
      | .ok record =>
        { s with
          sweeps := Function.update s.sweeps sweep (some (.write jobId verdict staleTs record)) }
      | .error _ => { s with sweeps := Function.update s.sweeps sweep none }
    | _ => s
  | .write sweep ts =>
    match s.sweeps sweep with
    | some (.write jobId verdict staleTs record) =>
      { s with
        fleet :=
          { s.fleet with
            store := s.fleet.store.setJob jobId (nextRecord jobId verdict.disposition ts
              [("swept_at", verdict.now), ("stale_ts", staleTs), ("error", .str verdict.reason)]
              record) }
        sweeps := Function.update s.sweeps sweep none
        swept := jobId :: s.swept }
    | _ => s

end Steps

/-! ### The lifecycle -/

/-- A status never leaves completed or failed, and never goes from running back to launching or
queued. -/
def StatusKept (status next : String) : Prop :=
  (Ended status → next = status) ∧ (status = "running" → next ≠ "launching" ∧ next ≠ "queued")

/-- The step keeps the lifecycle of every job. -/
def LifecycleKept (consumer : Consumer) (s : SweptFleet) (e : SweepEvent) : Prop :=
  ∀ jobId, StatusKept (boardStatus consumer.host jobId s.fleet.store)
    (boardStatus consumer.host jobId (s.step consumer e).fleet.store)

/-- No command of the job waits or is handled; recovery may be about to look at it. -/
def Unattended (consumer : Consumer) (jobId : String) (s : FleetState) : Prop :=
  ∀ raw ∈ s.pushed, jobOf consumer raw = some jobId → raw ∉ s.store.commands ∧
    ∀ stage, s.stage raw = some stage → stage = .inspect

/-- A sender that writes the record of its job after the push does so before a thread or a sweep
records the job as running or as ended. A sweep writes when nobody attends to the job, and the job
is not recorded as ended. -/
def WritesInTime (consumer : Consumer) (s : SweptFleet) : SweepEvent → Prop
  | .fleet (.launch raw) =>
    raw ∉ s.fleet.started ∧ ∀ jobId, jobOf consumer raw = some jobId → jobId ∉ s.swept
  | .write sweep _ =>
    ∀ jobId verdict staleTs record, s.sweeps sweep = some (.write jobId verdict staleTs record) →
      Unattended consumer jobId s.fleet ∧ ¬ Ended (boardStatus consumer.host jobId s.fleet.store)
  | _ => True

lemma statusKept_rfl {status : String} : StatusKept status status :=
  ⟨fun _ => rfl, fun h => by subst h; decide⟩

lemma statusKept_of_not_begun {status next : String} (h : ¬ Begun status) :
    StatusKept status next :=
  ⟨fun hended => absurd hended.begun h, fun hrunning => absurd (.inl hrunning) h⟩

lemma statusKept_of_ended {status next : String} (h : ¬ Ended status) (hnext : Ended next) :
    StatusKept status next := by
  refine ⟨fun hended => absurd hended h, fun _ => ?_⟩
  rcases hnext with rfl | rfl <;> decide

lemma not_begun_launching : ¬ Begun "launching" := by decide

lemma not_begun_queued : ¬ Begun "queued" := by decide

section Order

variable {consumer : Consumer} {raw jobId : String}

/-- What the stage of a thread on a job says of the board. -/
structure Stage.Fits (stage : Stage) (status : String) : Prop where
  early : stage.early = true → ¬ Begun status
  pending : stage.pending = true → ¬ Ended status

/-- The move of a thread on a job takes the board from one status to another. -/
structure Move.Fits (m : Move) (stage : Stage) (status after : String) : Prop where
  kept : StatusKept status after
  next : ∀ next, m.stage = some next → next.Fits after
  requeued : m.effect = .requeue → ¬ Begun after
  unrecorded : stage.records = false → ¬ Begun status → ¬ Begun after

lemma JobMove.fits (raw : String) {host : Runtime} {store : FleetStore} {stage : Stage} {m : Move}
    (hmove : JobMove host jobId store stage m)
    (h : stage.Fits (boardStatus host jobId store)) :
    m.Fits stage (boardStatus host jobId store)
      (boardStatus host jobId (m.effect.apply raw store)) := by
  have hquiet {m : Move} (heffect : m.effect = .none)
      (hnext : ∀ next, m.stage = some next → next.Fits (boardStatus host jobId store)) :
      m.Fits stage (boardStatus host jobId store)
        (boardStatus host jobId (m.effect.apply raw store)) := by
    rw [heffect]
    exact ⟨statusKept_rfl, hnext, by simp [heffect], fun _ h => h⟩
  have hended (h : ¬ Begun (boardStatus host jobId store)) :
      ¬ Ended (boardStatus host jobId store) := fun hended => h hended.begun
  cases hmove with
  | refused r =>
    refine hquiet rfl fun next hnext => ?_
    cases hnext
    exact ⟨by rintro ⟨⟩, fun _ => hended (h.early rfl)⟩
  | accepted | inline | queuedRead | runningRead =>
    refine hquiet rfl fun next hnext => ?_
    cases hnext
    exact ⟨fun _ => h.early rfl, by rintro ⟨⟩⟩
  | queuedWrite record written status =>
    have hafter : boardStatus host jobId (store.setJob jobId written) = "queued" := by
      rw [boardStatus_setJob, if_pos rfl, status]
    simp only [Effect.apply, hafter]
    refine ⟨statusKept_of_not_begun (h.early rfl), fun next hnext => ?_, by rintro ⟨⟩,
      fun _ _ => not_begun_queued⟩
    cases hnext
    exact ⟨fun _ => not_begun_queued, by rintro ⟨⟩⟩
  | runningWrite record written status =>
    have hafter : boardStatus host jobId (store.setJob jobId written) = "running" := by
      rw [boardStatus_setJob, if_pos rfl, status]
    simp only [Effect.apply, hafter]
    refine ⟨statusKept_of_not_begun (h.early rfl), fun next hnext => ?_, by rintro ⟨⟩,
      by rintro ⟨⟩⟩
    cases hnext
    exact ⟨by rintro ⟨⟩, fun _ => by decide⟩
  | answered r | resultRead r record =>
    refine hquiet rfl fun next hnext => ?_
    cases hnext
    exact ⟨by rintro ⟨⟩, fun _ => h.pending rfl⟩
  | pretended | ended status =>
    refine hquiet rfl fun next hnext => ?_
    cases hnext
    exact ⟨by rintro ⟨⟩, by rintro ⟨⟩⟩
  | resultWrite r record written next status leaving =>
    have hafter : boardStatus host jobId (store.setJob jobId written) =
        statusText host written := by
      rw [boardStatus_setJob, if_pos rfl]
    simp only [Effect.apply, hafter]
    refine ⟨statusKept_of_ended (h.pending rfl) status, fun next hnext => ?_, by rintro ⟨⟩,
      by rintro ⟨⟩⟩
    cases hnext
    cases next <;> cases leaving <;> exact ⟨by rintro ⟨⟩, by rintro ⟨⟩⟩
  | bury command reason =>
    refine ⟨statusKept_rfl, fun next hnext => ?_, by rintro ⟨⟩, fun _ h => h⟩
    cases hnext
    exact ⟨by rintro ⟨⟩, by rintro ⟨⟩⟩
  | release => exact ⟨statusKept_rfl, by rintro _ ⟨⟩, by rintro ⟨⟩, fun _ h => h⟩
  | interrupted r status =>
    refine hquiet rfl fun next hnext => ?_
    cases hnext
    refine ⟨by rintro ⟨⟩, fun _ => ?_⟩
    rw [status]
    decide
  | waiting status =>
    refine hquiet rfl fun next hnext => ?_
    cases hnext
    exact ⟨fun _ => status, by rintro ⟨⟩⟩
  | requeue => exact ⟨statusKept_rfl, by rintro _ ⟨⟩, fun _ => h.early rfl, fun _ h => h⟩

/-- What keeps the lifecycle: a job that waits has not begun, a thread fits what the board says of
its job, and so does a sender that still has to write. -/
structure Ordered (consumer : Consumer) (s : SweptFleet) : Prop where
  lanes : Lanes consumer s.fleet
  waiting : ∀ raw ∈ s.fleet.store.commands, ∀ jobId, jobOf consumer raw = some jobId →
    ¬ Begun (boardStatus consumer.host jobId s.fleet.store)
  fits : ∀ raw stage jobId, s.fleet.stage raw = some stage → jobOf consumer raw = some jobId →
    stage.Fits (boardStatus consumer.host jobId s.fleet.store)
  unwritten : ∀ raw ∈ s.fleet.unwritten, ∀ jobId, jobOf consumer raw = some jobId →
    raw ∉ s.fleet.started → jobId ∉ s.swept →
      ¬ Begun (boardStatus consumer.host jobId s.fleet.store)

variable {s : SweptFleet}

lemma Ordered.take {choice : Choice} {stage : Stage} {m : Move} (h : Ordered consumer s)
    (hraw : s.fleet.stage raw = some stage)
    (hmove : nextMove consumer raw choice s.fleet.store stage = some m) :
    Ordered consumer { s with fleet := s.fleet.take raw stage m } ∧
      ∀ jobId, StatusKept (boardStatus consumer.host jobId s.fleet.store)
        (boardStatus consumer.host jobId (s.fleet.take raw stage m).store) := by
  have hpushed := h.lanes.pushed_of_staged hraw
  have hown {own : String} (hjob : jobOf consumer raw = some own) :=
    (JobMove.of_nextMove hjob hmove).fits raw (h.fits raw stage own hraw hjob)
  have hother {other own : String} (hne : other ≠ raw) (hmem : other ∈ s.fleet.pushed)
      (hjob : jobOf consumer other = some own) :
      boardStatus consumer.host own (s.fleet.take raw stage m).store =
        boardStatus consumer.host own s.fleet.store := by
    rcases status_of_nextMove hmove own with hsame | ⟨hown, -⟩
    · exact hsame
    · exact absurd (h.lanes.jobs other hmem raw hpushed own hjob hown) hne
  refine ⟨⟨h.lanes.take hraw hmove, ?_, ?_, ?_⟩, ?_⟩
  · intro other hmem own hjob
    have hwaits := waiting_of_take hmove hmem
    by_cases hsame : other = raw
    · subst hsame
      rcases hwaits with ⟨-, hrequeue⟩ | hmem
      · exact (hown hjob).requeued hrequeue
      · exact absurd hmem (h.lanes.not_waiting (h.lanes.staged other stage hraw))
    · rcases hwaits with ⟨heq, -⟩ | hmem
      · exact absurd heq hsame
      · rw [hother hsame (h.lanes.pushed other (List.mem_append_left _ hmem)) hjob]
        exact h.waiting other hmem own hjob
  · intro other next own hnext hjob
    rcases stage_update hnext with ⟨rfl, hstage⟩ | ⟨hne, hstage⟩
    · exact (hown hjob).next next hstage
    · rw [hother hne (h.lanes.pushed_of_staged hstage) hjob]
      exact h.fits other next own hstage hjob
  · intro other hmem own hjob hnot hswept
    by_cases hsame : other = raw
    · subst hsame
      have hrecords : stage.records = false := by
        rw [← Bool.not_eq_true]
        intro hrecords
        exact hnot (by simp [FleetState.take, hrecords])
      have hbefore : other ∉ s.fleet.started := by
        simpa [FleetState.take, hrecords] using hnot
      exact (hown hjob).unrecorded hrecords (h.unwritten other hmem own hjob hbefore hswept)
    · rw [hother hsame (h.lanes.unwritten other hmem) hjob]
      exact h.unwritten other hmem own hjob (fun hstarted => hnot (started_of_take hstarted)) hswept
  · intro own
    rcases status_of_nextMove hmove own with hsame | ⟨hjob, -⟩
    · have heq : boardStatus consumer.host own (s.fleet.take raw stage m).store =
          boardStatus consumer.host own s.fleet.store := hsame
      rw [heq]
      exact statusKept_rfl
    · exact (hown hjob).kept

lemma Unattended.fits (h : Unattended consumer jobId s.fleet) {stage : Stage} {status : String}
    (hmem : raw ∈ s.fleet.pushed) (hjob : jobOf consumer raw = some jobId)
    (hraw : s.fleet.stage raw = some stage) : stage.Fits status := by
  obtain rfl := (h raw hmem hjob).2 stage hraw
  exact ⟨(nomatch ·), (nomatch ·)⟩

lemma Ordered.crash (h : Ordered consumer s) :
    Ordered consumer { s with fleet := s.fleet.crash } :=
  ⟨h.lanes.crash, h.waiting, nofun, h.unwritten⟩

lemma Ordered.fleet {e : Event} {t : FleetState} (h : Ordered consumer s)
    (htime : WritesInTime consumer s (.fleet e)) (hstep : FleetStep consumer s.fleet e t) :
    Ordered consumer { s with fleet := t } ∧
      ∀ jobId, StatusKept (boardStatus consumer.host jobId s.fleet.store)
        (boardStatus consumer.host jobId t.store) := by
  have hlanes := h.lanes.step hstep
  cases hstep with
  | idle => exact ⟨h, fun _ => statusKept_rfl⟩
  | push raw keyed fresh =>
    have hnew {own : String} (hjob : jobOf consumer raw = some own) :
        ¬ Begun (boardStatus consumer.host own s.fleet.store) := by
      rw [fresh.status hjob]
      decide
    have hsent {own : String} (hjob : jobOf consumer raw = some own) :
        ¬ Begun (boardStatus consumer.host own (s.fleet.push consumer raw keyed).store) := by
      rcases push_status s.fleet raw keyed own with hsame | ⟨-, hstatus⟩
      · rw [hsame]
        exact hnew hjob
      · rw [hstatus]
        exact not_begun_launching
    have hother {other own : String} (hmem : other ∈ s.fleet.pushed)
        (hjob : jobOf consumer other = some own) :
        boardStatus consumer.host own (s.fleet.push consumer raw keyed).store =
          boardStatus consumer.host own s.fleet.store := by
      rcases push_status s.fleet raw keyed own with hsame | ⟨hown, -⟩
      · exact hsame
      · exact absurd hjob (fresh.job hmem hown)
    refine ⟨⟨hlanes, ?_, ?_, ?_⟩, fun own => ?_⟩
    · intro other hmem own hjob
      rw [push_commands] at hmem
      rcases List.mem_cons.mp hmem with rfl | hmem
      · exact hsent hjob
      · rw [hother (h.lanes.pushed other (List.mem_append_left _ hmem)) hjob]
        exact h.waiting other hmem own hjob
    · intro other stage own hstage hjob
      rw [push_stage] at hstage
      rw [hother (h.lanes.pushed_of_staged hstage) hjob]
      exact h.fits other stage own hstage hjob
    · intro other hmem own hjob hnot hswept
      rw [push_started] at hnot
      rcases push_unwritten hmem with rfl | hmem
      · exact hsent hjob
      · rw [hother (h.lanes.unwritten other hmem) hjob]
        exact h.unwritten other hmem own hjob hnot hswept
    · rcases push_status s.fleet raw keyed own with hsame | ⟨hjob, -⟩
      · rw [hsame]
        exact statusKept_rfl
      · exact statusKept_of_not_begun (hnew hjob)
  | launch raw unwritten =>
    have hmem := h.lanes.unwritten raw unwritten
    have hafter {own : String} (hold : jobOf consumer raw ≠ some own →
        ¬ Begun (boardStatus consumer.host own s.fleet.store)) :
        ¬ Begun (boardStatus consumer.host own (recordLaunch consumer raw s.fleet.store)) := by
      rw [status_recordLaunch]
      split_ifs with hjob
      · exact not_begun_launching
      · exact hold hjob
    refine ⟨⟨hlanes, ?_, ?_, ?_⟩, fun own => ?_⟩
    · intro other hother own hjob
      rw [recordLaunch_commands] at hother
      exact hafter fun _ => h.waiting other hother own hjob
    · intro other stage own hstage hjob
      have hfits := h.fits other stage own hstage hjob
      refine ⟨fun hearly => hafter fun _ => hfits.early hearly, fun hpending => ?_⟩
      rw [status_recordLaunch]
      split_ifs with hown
      · decide
      · exact hfits.pending hpending
    · intro other hother own hjob hnot hswept
      exact hafter fun _ =>
        h.unwritten other (List.mem_of_mem_erase hother) own hjob hnot hswept
    · rw [status_recordLaunch]
      split_ifs with hjob
      · exact statusKept_of_not_begun (h.unwritten raw unwritten own hjob htime.1 (htime.2 own hjob))
      · exact statusKept_rfl
  | start => exact ⟨⟨hlanes, h.waiting, h.fits, h.unwritten⟩, fun _ => statusKept_rfl⟩
  | recover raw stage claimed begins =>
    refine ⟨⟨hlanes, h.waiting, ?_, h.unwritten⟩, fun _ => statusKept_rfl⟩
    intro other next own hnext hjob
    rcases stage_update hnext with ⟨rfl, hstage⟩ | ⟨-, hstage⟩
    · cases hstage
      rw [recoveryStage_of_job hjob begins]
      exact ⟨(nomatch ·), (nomatch ·)⟩
    · exact h.fits other next own hstage hjob
  | claim raw rest oldest recovered =>
    refine ⟨⟨hlanes, ?_, ?_, h.unwritten⟩, fun _ => statusKept_rfl⟩
    · intro other hother
      exact h.waiting other (by simp [oldest, show other ∈ rest from hother])
    · intro other next own hnext hjob
      rcases stage_update hnext with ⟨rfl, hstage⟩ | ⟨-, hstage⟩
      · cases hstage
        exact ⟨fun _ => h.waiting other (by simp [oldest]) own hjob, (nomatch ·)⟩
      · exact h.fits other next own hstage hjob
  | advance raw choice stage m staged move => exact h.take staged move
  | crash => exact ⟨h.crash, fun _ => statusKept_rfl⟩

theorem Ordered.step (h : Ordered consumer s) {e : SweepEvent} (htime : WritesInTime consumer s e) :
    Ordered consumer (s.step consumer e) ∧ LifecycleKept consumer s e := by
  have hquiet {t : SweptFleet} (hfleet : t.fleet = s.fleet) (hswept : t.swept = s.swept) :
      Ordered consumer t ∧ ∀ jobId, StatusKept (boardStatus consumer.host jobId s.fleet.store)
        (boardStatus consumer.host jobId t.fleet.store) := by
    obtain ⟨fleet, sweeps, swept⟩ := t
    cases hfleet
    cases hswept
    exact ⟨⟨h.lanes, h.waiting, h.fits, h.unwritten⟩, fun _ => statusKept_rfl⟩
  cases e with
  | fleet e => exact h.fleet htime (FleetStep.of_step s.fleet e)
  | judge sweep field verdict =>
    simp only [LifecycleKept, SweptFleet.step]
    split <;> exact hquiet rfl rfl
  | read sweep =>
    simp only [LifecycleKept, SweptFleet.step]
    split
    · split <;> exact hquiet rfl rfl
    · exact hquiet rfl rfl
  | write sweep ts =>
    simp only [LifecycleKept, SweptFleet.step]
    split
    · next jobId verdict staleTs record hwrite =>
      obtain ⟨hidle, hopen⟩ := htime jobId verdict staleTs record hwrite
      have hended : Ended verdict.disposition := by
        rw [Verdict.disposition]
        split_ifs
        · exact .inl rfl
        · exact .inr rfl
      have hnonempty : verdict.disposition ≠ "" := by
        rcases hended with hd | hd <;> rw [hd] <;> decide
      have hfields : ∀ kv ∈ [("swept_at", verdict.now), ("stale_ts", staleTs),
          ("error", Json.str verdict.reason)], kv.1 ≠ "status" := by simp
      have hafter (own : String) : boardStatus consumer.host own
          (s.fleet.store.setJob jobId (nextRecord jobId verdict.disposition ts
            [("swept_at", verdict.now), ("stale_ts", staleTs), ("error", .str verdict.reason)]
            record)) =
          if own = jobId then verdict.disposition
          else boardStatus consumer.host own s.fleet.store := by
        rw [boardStatus_setJob, statusText_nextRecord hfields hnonempty]
      refine ⟨⟨{ h.lanes with }, ?_, ?_, ?_⟩, fun own => ?_⟩
      · intro other hmem own hjob
        rw [hafter, if_neg]
        · exact h.waiting other hmem own hjob
        · rintro rfl
          exact (hidle other (h.lanes.pushed other (List.mem_append_left _ hmem)) hjob).1 hmem
      · intro other stage own hstage hjob
        rw [hafter]
        split_ifs with hsame
        · subst hsame
          exact hidle.fits (h.lanes.pushed_of_staged hstage) hjob hstage
        · exact h.fits other stage own hstage hjob
      · intro other hmem own hjob hnot hswept
        rw [List.mem_cons, not_or] at hswept
        rw [hafter, if_neg hswept.1]
        exact h.unwritten other hmem own hjob hnot hswept.2
      · rw [hafter]
        split_ifs with hsame
        · subst hsame
          exact statusKept_of_ended hopen hended
        · exact statusKept_rfl
    · exact hquiet rfl rfl

lemma ordered_start : Ordered consumer {} :=
  ⟨lanes_start, nofun, nofun, nofun⟩

lemma Ordered.run {events : List SweepEvent} (h : Ordered consumer s)
    (htime : Runs.Along (SweptFleet.step consumer) (WritesInTime consumer) s events) :
    Runs.Along (SweptFleet.step consumer) (LifecycleKept consumer) s events := by
  induction events generalizing s with
  | nil => trivial
  | cons e events ih =>
    obtain ⟨hordered, hkept⟩ := h.step htime.1
    exact ⟨hkept, ih hordered htime.2⟩

/-- In a run in which the senders and the sweeps write in time, no step breaks the lifecycle of a
job. -/
theorem lifecycle_kept {events : List SweepEvent}
    (htime : Runs.Along (SweptFleet.step consumer) (WritesInTime consumer) {} events) :
    Runs.Along (SweptFleet.step consumer) (LifecycleKept consumer) {} events :=
  ordered_start.run htime

end Order

/-! ### Late writes -/

/-- A job that was running when the consumer stopped is swept, and then recovered. -/
def sweptRun : List SweepEvent :=
  ([Event.push submitText true, .start] ++ dispatchEvents.dropLast ++ [Event.crash]).map .fleet ++
    [.judge 0 "j1" ⟨false, .int 9, "stale"⟩, .read 0, .write 0 (.int 9), .fleet .start,
      .fleet .recover, .fleet (.advance submitText {}), .fleet (.advance submitText {})]

theorem lifecycle_kept_swept :
    Runs.Along (SweptFleet.step submitConsumer) (LifecycleKept submitConsumer) {} sweptRun := by
  refine lifecycle_kept ⟨trivial, trivial, trivial, trivial, trivial, trivial, trivial, trivial,
    trivial, trivial, trivial, ?_, trivial, trivial, trivial, trivial, trivial⟩
  intro jobId verdict staleTs record hwrite
  have hjob : jobId = "j1" := by
    cases hwrite
    rfl
  subst hjob
  exact ⟨fun _ _ _ => ⟨List.not_mem_nil, nofun⟩, by decide⟩

/-- The sender writes its record when the job is running. -/
theorem late_launch_breaks_lifecycle : ∃ consumer events,
    ¬ Runs.Along (SweptFleet.step consumer) (LifecycleKept consumer) {} events := by
  refine ⟨submitConsumer, ([Event.push submitText false, .start] ++ dispatchEvents ++
    [Event.launch submitText]).map .fleet, fun h => ?_⟩
  have hlate := h.2.2.2.2.2.2.2.2.2.1 "j1"
  exact (hlate.2 rfl).1 rfl

end AgenticDynamics.Fleet
