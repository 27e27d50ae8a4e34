import AgenticDynamics.Fleet.FleetRuns

/-!
# What the threads of the fleet do

`JobMove` lists the calls of a thread on a command that carries a job. What such a call leaves on
the board and in the lanes is read off from it, and the lanes keep what the senders and the claims
rely on: no text is in them twice, and every text and every job belongs to one push.
-/

namespace AgenticDynamics.Fleet

open Python

/-! ### The board -/

section Board

variable {host : Runtime} {s : FleetStore} {jobId : String}

/-- The status of a job on the board, empty without a record. -/
def boardStatus (host : Runtime) (jobId : String) (s : FleetStore) : String :=
  match jobStatus host jobId s with
  | .ok status => status
  | .error _   => ""

/-- The job was recorded as running or as ended. -/
def Begun (status : String) : Prop := status = "running" ∨ status = "completed" ∨ status = "failed"

def Ended (status : String) : Prop := status = "completed" ∨ status = "failed"

instance (status : String) : Decidable (Begun status) := inferInstanceAs (Decidable (_ ∨ _))

instance (status : String) : Decidable (Ended status) := inferInstanceAs (Decidable (_ ∨ _))

lemma Ended.begun {status : String} (h : Ended status) : Begun status := .inr h

lemma boardStatus_setJob {other : String} {record : Dict Json} :
    boardStatus host other (s.setJob jobId record) =
      if other = jobId then statusText host record else boardStatus host other s := by
  simp only [boardStatus, jobStatus, FleetStore.setJob, Dict.get?_set]
  by_cases hsame : other = jobId
  · rw [if_pos hsame.symm, if_pos hsame]
    rfl
  · rw [if_neg (Ne.symm hsame), if_neg hsame]

lemma boardStatus_congr {t : FleetStore} (h : t.jobs = s.jobs) :
    boardStatus host jobId t = boardStatus host jobId s := by
  rw [boardStatus, boardStatus, jobStatus, jobStatus, h]

lemma statusText_launchRecord {command : Dict Json} :
    statusText host (launchRecord jobId command) = "launching" := rfl

end Board

/-! ### Threads on a job -/

/-- The job is not recorded as running, and its thread may still bring it there. -/
def Stage.early : Stage → Bool
  | claimed | queuedRead | queuedWrite _ | runningRead | runningWrite _ | requeue => true
  | _                                                                            => false

/-- The job is running, or about to be recorded as ended. -/
def Stage.pending : Stage → Bool
  | broker | resultRead _ | resultWrite _ _ => true
  | _                                       => false

def Stage.leaving : Stage → Bool
  | bury _ | release => true
  | _                => false

/-- The calls of a thread on a command that carries a job. -/
inductive JobMove (host : Runtime) (jobId : String) (s : FleetStore) : Stage → Move → Prop
  | refused (r : Resolution) : JobMove host jobId s .claimed { stage := some (.resultRead r) }
  | accepted : JobMove host jobId s .claimed { stage := some .queuedRead }
  | inline : JobMove host jobId s .claimed { stage := some .runningRead }
  | queuedRead (record : Dict Json) :
      JobMove host jobId s .queuedRead { stage := some (.queuedWrite record) }
  | queuedWrite (record next : Dict Json) (status : statusText host next = "queued") :
      JobMove host jobId s (.queuedWrite record)
        { effect := .write jobId next, stage := some .runningRead }
  | runningRead (record : Dict Json) :
      JobMove host jobId s .runningRead { stage := some (.runningWrite record) }
  | runningWrite (record next : Dict Json) (status : statusText host next = "running") :
      JobMove host jobId s (.runningWrite record)
        { effect := .write jobId next, stage := some .broker }
  | answered (r : Resolution) :
      JobMove host jobId s .broker { stage := some (.resultRead r), calls := true }
  | pretended :
      JobMove host jobId s .broker { stage := some .release, calls := true, settles := true }
  | resultRead (r : Resolution) (record : Dict Json) :
      JobMove host jobId s (.resultRead r) { stage := some (.resultWrite r record) }
  | resultWrite (r : Resolution) (record next : Dict Json) (stage : Stage)
      (status : Ended (statusText host next)) (leaving : stage.leaving = true) :
      JobMove host jobId s (.resultWrite r record)
        { effect := .write jobId next, stage := some stage, settles := true }
  | bury (command : Json) (reason : String) :
      JobMove host jobId s (.bury reason)
        { effect := .bury command reason, stage := some .release }
  | release : JobMove host jobId s .release { effect := .release, stage := none }
  | interrupted (r : Resolution) (status : boardStatus host jobId s = "running") :
      JobMove host jobId s .inspect { stage := some (.resultRead r) }
  | ended (status : Ended (boardStatus host jobId s)) :
      JobMove host jobId s .inspect { stage := some .release }
  | waiting (status : ¬ Begun (boardStatus host jobId s)) :
      JobMove host jobId s .inspect { stage := some .requeue }
  | requeue : JobMove host jobId s .requeue { effect := .requeue, stage := none }

section Inversion

variable {consumer : Consumer} {raw jobId : String} {choice : Choice} {s : FleetStore}
  {stage : Stage} {m : Move}

lemma loads_of_commandOf {command : Dict Json} (h : commandOf consumer raw = some command) :
    consumer.host.loads raw = .ok (.obj command) := by
  rw [commandOf] at h
  split at h
  · cases h
    assumption
  · cases h

lemma jobOf_spec (h : jobOf consumer raw = some jobId) :
    ∃ command, consumer.host.loads raw = .ok (.obj command) ∧ isSubmit command = true ∧
      jobIdText consumer.host command = jobId ∧ jobId ≠ "" := by
  rw [jobOf] at h
  obtain ⟨command, hcommand, h⟩ := Option.bind_eq_some_iff.mp h
  simp only at h
  split_ifs at h with hjob
  cases h
  exact ⟨command, loads_of_commandOf hcommand, hjob.1, rfl, hjob.2⟩

lemma readJob_spec {command : Dict Json} {next : Dict Json → Stage}
    (h : readJob consumer raw s command next = some m) : ∃ record, m = { stage := next record } := by
  rw [readJob] at h
  obtain ⟨_, -, h⟩ := Option.bind_eq_some_iff.mp h
  split_ifs at h
  split at h
  · exact ⟨_, (Option.some.inj h).symm⟩
  · cases h

lemma writeJob_spec {status : String} {ts : Json} {fields record : Dict Json} {next : Stage}
    {settles : Bool} (hjob : jobOf consumer raw = some jobId)
    (h : writeJob consumer raw status ts fields record next settles = some m) :
    m = { effect := .write jobId (nextRecord jobId status ts fields record),
          stage := some next, settles } := by
  rw [writeJob, hjob] at h
  exact (Option.some.inj h).symm

lemma JobMove.of_nextMove (hjob : jobOf consumer raw = some jobId)
    (h : nextMove consumer raw choice s stage = some m) :
    JobMove consumer.host jobId s stage m := by
  obtain ⟨command, hloads, hsubmit, hid, hblank⟩ := jobOf_spec hjob
  have hstatus : claimedStatus consumer.host command s = jobStatus consumer.host jobId s := by
    rw [claimedStatus, hid, if_neg hblank]
  have hresolve (r : Resolution) : resolve consumer raw r = .resultRead r := by
    simp [resolve, hjob]
  simp only [nextMove, hloads] at h
  cases stage with
  | claimed =>
    simp only [Stage.next, hsubmit, hjob, hresolve, Option.isSome_some, and_self, if_true] at h
    split_ifs at h <;> cases h
    · exact .refused _
    · exact .inline
    · exact .accepted
  | queuedRead =>
    obtain ⟨record, rfl⟩ := readJob_spec h
    exact .queuedRead record
  | queuedWrite record =>
    cases writeJob_spec hjob h
    exact .queuedWrite record _ (statusText_nextRecord (by simp) (by decide))
  | runningRead =>
    obtain ⟨record, rfl⟩ := readJob_spec h
    exact .runningRead record
  | runningWrite record =>
    cases writeJob_spec hjob h
    exact .runningWrite record _ (statusText_nextRecord (by simp) (by decide))
  | broker =>
    simp only [Stage.next, hjob, Option.isSome_some, and_true] at h
    split_ifs at h <;> cases h
    · exact .answered _
    · exact .pretended
  | resultRead r =>
    obtain ⟨record, rfl⟩ := readJob_spec h
    exact .resultRead r record
  | resultWrite r record =>
    cases writeJob_spec hjob h
    refine .resultWrite r record _ _ ?_ ?_
    · rw [statusText_nextRecord r.status_kept]
      · exact r.ended
      · rcases r.ended with hr | hr <;> rw [hr] <;> decide
    · cases r.reason <;> rfl
  | bury reason =>
    cases h
    exact .bury _ reason
  | release =>
    cases h
    exact .release
  | inspect =>
    simp only [Stage.next, hstatus] at h
    have hboard {status : String} (hok : jobStatus consumer.host jobId s = .ok status) :
        boardStatus consumer.host jobId s = status := by rw [boardStatus, hok]
    split at h
    · cases h
    · next status hok =>
      rw [hresolve] at h
      split_ifs at h with hrunning hended <;> cases h
      · exact .interrupted _ ((hboard hok).trans hrunning)
      · exact .ended ((hboard hok).symm ▸ hended)
      · refine .waiting ?_
        rw [hboard hok]
        rintro (hbegun | hbegun)
        · exact hrunning hbegun
        · exact hended hbegun
  | requeue =>
    cases h
    exact .requeue

/-- The move leaves the lanes as they are, and the board if its text has no job. -/
structure Move.StaysIn (consumer : Consumer) (raw : String) (s : FleetStore) (m : Move) : Prop where
  goesOn : m.stage ≠ none
  commands : (m.effect.apply raw s).commands = s.commands
  processing : (m.effect.apply raw s).processing = s.processing
  jobs : jobOf consumer raw = none → (m.effect.apply raw s).jobs = s.jobs

lemma lane_of_nextMove (h : nextMove consumer raw choice s stage = some m) :
    m.stage = none ∧ (m.effect = .release ∨ m.effect = .requeue) ∨
      m.StaysIn consumer raw s := by
  have hread {command : Dict Json} {next : Dict Json → Stage}
      (h : readJob consumer raw s command next = some m) :
      m.StaysIn consumer raw s := by
    obtain ⟨record, rfl⟩ := readJob_spec h
    exact ⟨by simp, rfl, rfl, fun _ => rfl⟩
  have hwrite {status : String} {ts : Json} {fields record : Dict Json} {next : Stage}
      {settles : Bool}
      (h : writeJob consumer raw status ts fields record next settles = some m) :
      m.StaysIn consumer raw s := by
    cases hjob : jobOf consumer raw with
    | none =>
      rw [writeJob, hjob] at h
      cases h
    | some jobId =>
      cases writeJob_spec hjob h
      exact ⟨by simp, rfl, rfl, fun hnone => nomatch hjob.symm.trans hnone⟩
  unfold nextMove at h
  cases hloads : consumer.host.loads raw with
  | error e =>
    cases stage <;> simp only [hloads] at h
    case claimed =>
      split_ifs at h
      cases h
      exact .inr ⟨by simp, rfl, rfl, fun _ => rfl⟩
    case release =>
      cases h
      exact .inl ⟨rfl, .inl rfl⟩
    all_goals cases h
  | ok value =>
  by_cases hcommand : ∃ command, value = .obj command
  · obtain ⟨command, rfl⟩ := hcommand
    simp only [hloads] at h
    cases stage with
    | claimed | broker =>
      simp only [Stage.next] at h
      split_ifs at h <;> cases h <;> exact .inr ⟨by simp, rfl, rfl, fun _ => rfl⟩
    | queuedRead | runningRead | resultRead => exact .inr (hread h)
    | queuedWrite | runningWrite | resultWrite => exact .inr (hwrite h)
    | bury =>
      cases h
      exact .inr ⟨by simp, rfl, rfl, fun _ => rfl⟩
    | release =>
      cases h
      exact .inl ⟨rfl, .inl rfl⟩
    | inspect =>
      simp only [Stage.next] at h
      split at h
      · cases h
      · split_ifs at h <;> cases h <;> exact .inr ⟨by simp, rfl, rfl, fun _ => rfl⟩
    | requeue =>
      cases h
      exact .inl ⟨rfl, .inr rfl⟩
  · cases value with
    | obj command => exact absurd ⟨command, rfl⟩ hcommand
    | _ =>
      cases stage <;> simp only [hloads] at h <;> cases h
      exact .inl ⟨rfl, .inl rfl⟩

lemma status_of_nextMove (h : nextMove consumer raw choice s stage = some m) (jobId : String) :
    boardStatus consumer.host jobId (m.effect.apply raw s) = boardStatus consumer.host jobId s ∨
      jobOf consumer raw = some jobId ∧ ∃ record, m.effect = .write jobId record ∧
        boardStatus consumer.host jobId (m.effect.apply raw s) =
          statusText consumer.host record := by
  cases hjob : jobOf consumer raw with
  | none =>
    left
    rcases lane_of_nextMove h with ⟨-, heffect | heffect⟩ | ⟨-, -, -, hjobs⟩
    · rw [heffect]
      rfl
    · rw [heffect]
      rfl
    · exact boardStatus_congr (hjobs hjob)
  | some own =>
    have hwrite (record : Dict Json) (heffect : m.effect = .write own record) :
        boardStatus consumer.host jobId (m.effect.apply raw s) = boardStatus consumer.host jobId s ∨
          some own = some jobId ∧ ∃ record, m.effect = .write jobId record ∧
            boardStatus consumer.host jobId (m.effect.apply raw s) =
              statusText consumer.host record := by
      rw [heffect, Effect.apply, boardStatus_setJob]
      by_cases hsame : jobId = own
      · subst hsame
        exact .inr ⟨rfl, record, rfl, if_pos rfl⟩
      · exact .inl (if_neg hsame)
    cases JobMove.of_nextMove hjob h with
    | queuedWrite record next => exact hwrite next rfl
    | runningWrite record next => exact hwrite next rfl
    | resultWrite r record next => exact hwrite next rfl
    | _ => exact .inl rfl

end Inversion

/-! ### The lanes -/

section Lanes

variable {consumer : Consumer}

/-- What the lanes, the threads and the senders know of the texts. -/
structure Lanes (consumer : Consumer) (s : FleetState) : Prop where
  nodup : (s.store.commands ++ s.store.processing).Nodup
  pushed : ∀ raw ∈ s.store.commands ++ s.store.processing, raw ∈ s.pushed
  staged : ∀ raw stage, s.stage raw = some stage → raw ∈ s.store.processing
  entries_nodup : s.entries.Nodup
  entries_claimed : ∀ raw ∈ s.entries, raw ∈ s.store.processing
  started : ∀ raw ∈ s.started, raw ∈ s.pushed
  unwritten : ∀ raw ∈ s.unwritten, raw ∈ s.pushed
  jobs : ∀ raw ∈ s.pushed, ∀ other ∈ s.pushed, ∀ jobId, jobOf consumer raw = some jobId →
    jobOf consumer other = some jobId → raw = other

variable {s : FleetState} {raw : String}

lemma Lanes.pushed_of_staged (h : Lanes consumer s) {stage : Stage} (hraw : s.stage raw = some stage) :
    raw ∈ s.pushed :=
  h.pushed raw (List.mem_append_right _ (h.staged raw stage hraw))

lemma Lanes.not_waiting (h : Lanes consumer s) (hraw : raw ∈ s.store.processing) :
    raw ∉ s.store.commands :=
  fun hmem => (List.disjoint_of_nodup_append h.nodup) hmem hraw

lemma Lanes.crash (h : Lanes consumer s) : Lanes consumer s.crash :=
  { h with
    staged := nofun
    entries_nodup := List.nodup_nil
    entries_claimed := by simp [FleetState.crash] }

@[simp] lemma recordLaunch_commands {store : FleetStore} :
    (recordLaunch consumer raw store).commands = store.commands := by
  rw [recordLaunch]
  split <;> rfl

@[simp] lemma recordLaunch_processing {store : FleetStore} :
    (recordLaunch consumer raw store).processing = store.processing := by
  rw [recordLaunch]
  split <;> rfl

lemma status_recordLaunch {store : FleetStore} (jobId : String) :
    boardStatus consumer.host jobId (recordLaunch consumer raw store) =
      if jobOf consumer raw = some jobId then "launching"
      else boardStatus consumer.host jobId store := by
  cases hjob : jobOf consumer raw with
  | none =>
    rw [if_neg (by simp), recordLaunch, hjob]
    cases commandOf consumer raw <;> rfl
  | some own =>
    obtain ⟨command, hloads, -⟩ := jobOf_spec hjob
    have hcommand : commandOf consumer raw = some command := by rw [commandOf, hloads]
    rw [recordLaunch, hcommand, hjob]
    simp only [boardStatus_setJob, statusText_launchRecord, Option.some.injEq, eq_comm]

lemma FleetState.fresh.job {other jobId : String} (h : s.fresh consumer raw)
    (hmem : other ∈ s.pushed) (hjob : jobOf consumer raw = some jobId) :
    jobOf consumer other ≠ some jobId :=
  (h.2 jobId hjob).1 other hmem

lemma FleetState.fresh.status {jobId : String} (h : s.fresh consumer raw)
    (hjob : jobOf consumer raw = some jobId) : boardStatus consumer.host jobId s.store = "" := by
  rw [boardStatus, jobStatus, Option.isNone_iff_eq_none.mp (h.2 jobId hjob).2]
  rfl

/-! What a push leaves alone. -/

section Push

variable {keyed : Bool}

@[simp] lemma push_commands :
    (s.push consumer raw keyed).store.commands = raw :: s.store.commands := by
  rw [FleetState.push]
  split_ifs
  · exact recordLaunch_commands
  · rfl
  · rfl

@[simp] lemma push_processing :
    (s.push consumer raw keyed).store.processing = s.store.processing := by
  rw [FleetState.push]
  split_ifs
  · exact recordLaunch_processing
  · rfl
  · rfl

@[simp] lemma push_pushed : (s.push consumer raw keyed).pushed = raw :: s.pushed := by
  rw [FleetState.push]
  split_ifs <;> rfl

@[simp] lemma push_stage : (s.push consumer raw keyed).stage = s.stage := by
  rw [FleetState.push]
  split_ifs <;> rfl

@[simp] lemma push_entries : (s.push consumer raw keyed).entries = s.entries := by
  rw [FleetState.push]
  split_ifs <;> rfl

@[simp] lemma push_started : (s.push consumer raw keyed).started = s.started := by
  rw [FleetState.push]
  split_ifs <;> rfl

@[simp] lemma push_called : (s.push consumer raw keyed).called = s.called := by
  rw [FleetState.push]
  split_ifs <;> rfl

@[simp] lemma push_settled : (s.push consumer raw keyed).settled = s.settled := by
  rw [FleetState.push]
  split_ifs <;> rfl

lemma push_unwritten {other : String} (h : other ∈ (s.push consumer raw keyed).unwritten) :
    other = raw ∨ other ∈ s.unwritten := by
  rw [FleetState.push] at h
  split_ifs at h
  · exact .inr h
  · exact List.mem_cons.mp h
  · exact .inr h

lemma push_status (s : FleetState) (raw : String) (keyed : Bool) (jobId : String) :
    boardStatus consumer.host jobId (s.push consumer raw keyed).store =
        boardStatus consumer.host jobId s.store ∨
      jobOf consumer raw = some jobId ∧
        boardStatus consumer.host jobId (s.push consumer raw keyed).store = "launching" := by
  rw [FleetState.push]
  split_ifs
  · rw [status_recordLaunch]
    split_ifs with hjob
    · exact .inr ⟨hjob, rfl⟩
    · exact .inl rfl
  · exact .inl rfl
  · exact .inl rfl

end Push

lemma Lanes.push (h : Lanes consumer s) (hfresh : s.fresh consumer raw) (keyed : Bool) :
    Lanes consumer (s.push consumer raw keyed) where
  nodup := by
    rw [push_commands, push_processing]
    exact List.nodup_cons.mpr ⟨fun hmem => hfresh.1 (h.pushed raw hmem), h.nodup⟩
  pushed other hother := by
    rw [push_commands, push_processing, List.cons_append] at hother
    rw [push_pushed]
    rcases List.mem_cons.mp hother with rfl | hother
    · exact List.mem_cons_self
    · exact List.mem_cons_of_mem _ (h.pushed other hother)
  staged := by simpa using h.staged
  entries_nodup := by simpa using h.entries_nodup
  entries_claimed := by simpa using h.entries_claimed
  started other hother := by
    rw [push_started] at hother
    rw [push_pushed]
    exact List.mem_cons_of_mem _ (h.started other hother)
  unwritten other hother := by
    rw [push_pushed]
    rcases push_unwritten hother with rfl | hother
    · exact List.mem_cons_self
    · exact List.mem_cons_of_mem _ (h.unwritten other hother)
  jobs r hr other hother jobId hjob hjob' := by
    rw [push_pushed] at hr hother
    rcases List.mem_cons.mp hr with hnewest | hold <;>
      rcases List.mem_cons.mp hother with hnewest' | hold'
    · exact hnewest.trans hnewest'.symm
    · subst hnewest
      exact absurd hjob' (hfresh.job hold' hjob)
    · subst hnewest'
      exact absurd hjob (hfresh.job hold hjob')
    · exact h.jobs r hold other hold' jobId hjob hjob'

lemma stage_update {stage : String → Option Stage} {st : Option Stage} {other : String}
    {next : Stage} (h : Function.update stage raw st other = some next) :
    other = raw ∧ st = some next ∨ other ≠ raw ∧ stage other = some next := by
  by_cases hsame : other = raw
  · subst hsame
    rw [Function.update_self] at h
    exact .inl ⟨rfl, h⟩
  · rw [Function.update_of_ne hsame] at h
    exact .inr ⟨hsame, h⟩

lemma waiting_of_take {choice : Choice} {stage : Stage} {m : Move} {other : String}
    (hmove : nextMove consumer raw choice s.store stage = some m)
    (hother : other ∈ (s.take raw stage m).store.commands) :
    other = raw ∧ m.effect = .requeue ∨ other ∈ s.store.commands := by
  rcases lane_of_nextMove hmove with ⟨-, heffect | heffect⟩ | ⟨-, hcommands, -⟩
  · simp only [FleetState.take, heffect] at hother
    exact .inr hother
  · simp only [FleetState.take, heffect] at hother
    rcases List.mem_cons.mp hother with rfl | hother
    · exact .inl ⟨rfl, heffect⟩
    · exact .inr hother
  · simp only [FleetState.take, hcommands] at hother
    exact .inr hother

lemma started_of_take {stage : Stage} {m : Move} {other : String} (hother : other ∈ s.started) :
    other ∈ (s.take raw stage m).started := by
  simp only [FleetState.take]
  split_ifs
  · exact List.mem_cons_of_mem _ hother
  · exact hother

lemma Lanes.take {choice : Choice} {stage : Stage} {m : Move} (h : Lanes consumer s)
    (hraw : s.stage raw = some stage)
    (hmove : nextMove consumer raw choice s.store stage = some m) :
    Lanes consumer (s.take raw stage m) := by
  have hmem : raw ∈ s.store.processing := h.staged raw stage hraw
  have hpushed := h.pushed_of_staged hraw
  have hclaims : (s.store.processing.erase raw).Nodup :=
    ((List.nodup_append'.mp h.nodup).2.1).erase raw
  have hperm : (raw :: s.store.commands ++ s.store.processing.erase raw).Perm
      (s.store.commands ++ s.store.processing) :=
    List.perm_middle.symm.trans (List.Perm.append_left _ (List.perm_cons_erase hmem).symm)
  have hkept {other : String} (hne : other ≠ raw) (hother : other ∈ s.store.processing) :
      other ∈ s.store.processing.erase raw := (List.mem_erase_of_ne hne).mpr hother
  have hentries {other : String} (hother : other ∈ s.entries.erase raw) :
      other ∈ s.store.processing.erase raw := by
    obtain ⟨hne, hother⟩ := h.entries_nodup.mem_erase_iff.mp hother
    exact hkept hne (h.entries_claimed other hother)
  have hbegun : ∀ r ∈ (s.take raw stage m).started, r ∈ s.pushed := by
    intro r hr
    simp only [FleetState.take] at hr
    split_ifs at hr
    · rcases List.mem_cons.mp hr with rfl | hr
      · exact hpushed
      · exact h.started r hr
    · exact h.started r hr
  rcases lane_of_nextMove hmove with ⟨hstage, heffect⟩ | ⟨hstage, hcommands, hprocessing, -⟩
  · have hstaged : ∀ other next, (s.take raw stage m).stage other = some next →
        other ∈ s.store.processing.erase raw := by
      intro other next hother
      rcases stage_update hother with ⟨-, hnext⟩ | ⟨hne, hother⟩
      · cases hstage.symm.trans hnext
      · exact hkept hne (h.staged other next hother)
    have hleft : (s.take raw stage m).entries = s.entries.erase raw := by
      simp [FleetState.take, hstage]
    rcases heffect with heffect | heffect
    · have hstore : (s.take raw stage m).store = releaseCommand raw s.store := by
        simp only [FleetState.take, heffect, Effect.apply]
      refine ⟨?_, ?_, ?_, ?_, ?_, hbegun, h.unwritten, h.jobs⟩
      · rw [hstore]
        exact h.nodup.sublist (List.Sublist.append_left List.erase_sublist _)
      · rw [hstore]
        exact fun r hr => h.pushed r ((List.Sublist.append_left List.erase_sublist _).subset hr)
      · rw [hstore]
        exact hstaged
      · rw [hleft]
        exact h.entries_nodup.erase raw
      · rw [hleft, hstore]
        exact fun r hr => hentries hr
    · have hstore : (s.take raw stage m).store = requeueClaimed raw s.store := by
        simp only [FleetState.take, heffect, Effect.apply]
      refine ⟨?_, ?_, ?_, ?_, ?_, hbegun, h.unwritten, h.jobs⟩
      · rw [hstore]
        exact hperm.nodup_iff.mpr h.nodup
      · rw [hstore]
        exact fun r hr => h.pushed r (hperm.mem_iff.mp hr)
      · rw [hstore]
        exact hstaged
      · rw [hleft]
        exact h.entries_nodup.erase raw
      · rw [hleft, hstore]
        exact fun r hr => hentries hr
  · have hleft : (s.take raw stage m).entries = s.entries := by
      simp [FleetState.take, hstage]
    refine ⟨?_, ?_, ?_, ?_, ?_, hbegun, h.unwritten, h.jobs⟩
    · simp only [FleetState.take, hcommands, hprocessing]
      exact h.nodup
    · simp only [FleetState.take, hcommands, hprocessing]
      exact h.pushed
    · intro other next hother
      simp only [FleetState.take, hprocessing]
      rcases stage_update hother with ⟨rfl, -⟩ | ⟨-, hother⟩
      · exact hmem
      · exact h.staged other next hother
    · rw [hleft]
      exact h.entries_nodup
    · rw [hleft]
      simp only [FleetState.take, hprocessing]
      exact h.entries_claimed

inductive FleetStep (consumer : Consumer) (s : FleetState) : Event → FleetState → Prop
  | idle (e : Event) : FleetStep consumer s e s
  | push (raw : String) (keyed : Bool) (fresh : s.fresh consumer raw) :
      FleetStep consumer s (.push raw keyed) (s.push consumer raw keyed)
  | launch (raw : String) (unwritten : raw ∈ s.unwritten) :
      FleetStep consumer s (.launch raw)
        { s with store := recordLaunch consumer raw s.store, unwritten := s.unwritten.erase raw }
  | start : FleetStep consumer s .start
      { s with up := true, entries := s.store.processing.reverse }
  | recover (raw : String) (stage : Stage) (claimed : raw ∈ s.entries)
      (begins : recoveryStage consumer raw = some stage) :
      FleetStep consumer s .recover
        { s with stage := Function.update s.stage raw (some stage) }
  | claim (raw : String) (rest : List String) (oldest : s.store.commands = rest ++ [raw])
      (recovered : s.entries = []) :
      FleetStep consumer s .claim
        { s with
          store := { s.store with commands := rest, processing := s.store.processing ++ [raw] }
          stage := Function.update s.stage raw (some .claimed) }
  | advance (raw : String) (choice : Choice) (stage : Stage) (m : Move)
      (staged : s.stage raw = some stage)
      (move : nextMove consumer raw choice s.store stage = some m) :
      FleetStep consumer s (.advance raw choice) (s.take raw stage m)
  | crash (e : Event) : FleetStep consumer s e s.crash

lemma FleetStep.of_step (s : FleetState) (e : Event) : FleetStep consumer s e (s.step consumer e) := by
  cases e with
  | push raw keyed =>
    simp only [FleetState.step]
    split_ifs with hfresh
    · exact .push raw keyed hfresh
    · exact .idle _
  | launch raw =>
    simp only [FleetState.step]
    split_ifs with hunwritten
    · exact .launch raw hunwritten
    · exact .idle _
  | start =>
    simp only [FleetState.step]
    split_ifs
    · exact .idle _
    · exact .start
  | recover =>
    simp only [FleetState.step]
    split
    · exact .idle _
    · next raw rest hentries =>
      split
      · exact .idle _
      · next stage _ hbegins => exact .recover raw stage (by simp [hentries]) hbegins
      · exact .crash _
  | claim =>
    simp only [FleetState.step]
    split
    · next raw store hclaim =>
      split_ifs with hidle
      · obtain ⟨last, hlast, heq⟩ := Option.map_eq_some_iff.mp hclaim
        cases heq
        obtain ⟨rest, hrest⟩ := List.getLast?_eq_some_iff.mp hlast
        have hdrop : s.store.commands.dropLast = rest := by rw [hrest, List.dropLast_concat]
        rw [hdrop]
        exact .claim raw rest hrest hidle.2
      · exact .idle _
    · exact .idle _
  | advance raw choice =>
    simp only [FleetState.step]
    split
    · exact .idle _
    · next stage hraw =>
      split
      · next m hmove => exact .advance raw choice stage m hraw hmove
      · exact .crash _
  | crash => exact .crash _

theorem Lanes.step {e : Event} {t : FleetState} (h : Lanes consumer s)
    (hstep : FleetStep consumer s e t) : Lanes consumer t := by
  cases hstep with
  | idle => exact h
  | push raw keyed fresh => exact h.push fresh keyed
  | launch raw unwritten =>
    exact { h with
      nodup := by simpa using h.nodup
      pushed := by simpa using h.pushed
      staged := by simpa using h.staged
      entries_claimed := by simpa using h.entries_claimed
      unwritten := fun r hr => h.unwritten r (List.mem_of_mem_erase hr) }
  | start =>
    exact { h with
      entries_nodup := List.nodup_reverse.mpr (List.nodup_append'.mp h.nodup).2.1
      entries_claimed := fun r hr => List.mem_reverse.mp hr }
  | recover raw stage claimed =>
    refine { h with staged := fun other next hother => ?_ }
    rcases stage_update hother with ⟨rfl, -⟩ | ⟨-, hother⟩
    · exact h.entries_claimed other claimed
    · exact h.staged other next hother
  | claim raw rest oldest recovered =>
    have hperm : (rest ++ (s.store.processing ++ [raw])).Perm
        (s.store.commands ++ s.store.processing) := by
      rw [oldest, List.append_assoc]
      exact List.Perm.append_left _ List.perm_append_comm
    refine { h with
      nodup := hperm.nodup_iff.mpr h.nodup
      pushed := fun r hr => h.pushed r (hperm.mem_iff.mp hr)
      staged := fun other next hother => ?_
      entries_claimed := by simp [recovered] }
    rcases stage_update hother with ⟨rfl, -⟩ | ⟨-, hother⟩
    · simp
    · exact List.mem_append_left _ (h.staged other next hother)
  | advance raw choice stage m staged move => exact h.take staged move
  | crash => exact h.crash

lemma lanes_start : Lanes consumer {} := by
  constructor <;> simp

end Lanes

end AgenticDynamics.Fleet
