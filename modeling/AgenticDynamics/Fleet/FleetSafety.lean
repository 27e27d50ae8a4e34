import AgenticDynamics.Fleet.FleetMoves

/-!
# No command is lost, and no submit runs twice

Whatever the order of the steps and wherever the consumer stops, a well-formed command waits, is
claimed, or has come to its end. That the broker is not called again for a submit rests on the
board: recovery puts a claim back unless the board says that its job has begun. A sender without a
request key writes the first record of the job after the push, and this record can come last.
-/

namespace AgenticDynamics.Fleet

open Python

section Safety

variable {consumer : Consumer} {s : FleetState} {raw jobId : String}

/-- A command that the senders make: a submit with a job, or a control action that is accepted. -/
def WellFormed (consumer : Consumer) (raw : String) : Prop :=
  ∃ command, commandOf consumer raw = some command ∧
    if isSubmit command then (jobOf consumer raw).isSome ∧ encodable command
    else controlErrors consumer command = []

/-- Every well-formed command that was pushed waits, is claimed, or has come to its end. -/
def CommandsKept (consumer : Consumer) (s : FleetState) : Prop :=
  ∀ raw ∈ s.pushed, WellFormed consumer raw →
    raw ∈ s.store.commands ∨ raw ∈ s.store.processing ∨ raw ∈ s.settled

/-- The broker is called at most once for a submit with a job. -/
def SubmitsOnce (consumer : Consumer) (s : FleetState) : Prop :=
  ∀ raw, (jobOf consumer raw).isSome → s.called.count raw ≤ 1

/-- A sender that writes the record of its job after the push does so before the job is recorded as
running or as ended. -/
def LaunchInTime (s : FleetState) : Event → Prop
  | .launch raw => raw ∉ s.started
  | _           => True

/-! ### No command is lost -/

def Stage.ofOrder : Stage → Bool
  | claimed | broker | release | requeue => true
  | _                                    => false

lemma order_of_nextMove {choice : Choice} {store : FleetStore} {stage : Stage} {m : Move}
    (hwf : WellFormed consumer raw) (hjob : jobOf consumer raw = none)
    (hstage : stage.ofOrder = true) (h : nextMove consumer raw choice store stage = some m) :
    stage = .claimed ∧ m.stage = some .broker ∨
      stage = .broker ∧ m.stage = some .release ∧ m.settles = true ∨
      stage = .release ∧ m.stage = none ∨ m.stage = none ∧ m.effect = .requeue := by
  obtain ⟨command, hcommand, hwf⟩ := hwf
  have hloads := loads_of_commandOf hcommand
  have hcontrol : isSubmit command = false := by
    by_contra hsubmit
    rw [if_pos (by simpa using hsubmit), hjob] at hwf
    cases hwf.1
  simp only [hcontrol, Bool.false_eq_true, if_false] at hwf
  simp only [nextMove, hloads] at h
  cases stage with
  | claimed =>
    simp only [Stage.next, commandErrors, hcontrol, hwf, Bool.false_eq_true, if_false, ne_eq,
      not_true, false_and, Option.some.injEq] at h
    cases h
    exact .inl ⟨rfl, rfl⟩
  | broker =>
    simp only [Stage.next, hjob, Option.isSome_none, Bool.false_eq_true, and_false, if_false,
      Option.some.injEq] at h
    cases h
    exact .inr (.inl ⟨rfl, rfl, rfl⟩)
  | release =>
    cases h
    exact .inr (.inr (.inl ⟨rfl, rfl⟩))
  | requeue =>
    cases h
    exact .inr (.inr (.inr ⟨rfl, rfl⟩))
  | _ => cases hstage

/-- What keeps the commands: a claim is given up only when its command has come to its end. -/
structure Kept (consumer : Consumer) (s : FleetState) : Prop where
  lanes : Lanes consumer s
  kept : CommandsKept consumer s
  leaving : ∀ raw stage, WellFormed consumer raw → s.stage raw = some stage →
    stage.leaving = true → raw ∈ s.settled
  ended : ∀ raw ∈ s.pushed, ∀ jobId, jobOf consumer raw = some jobId →
    Ended (boardStatus consumer.host jobId s.store) → raw ∈ s.settled
  order : ∀ raw stage, WellFormed consumer raw → jobOf consumer raw = none →
    s.stage raw = some stage → stage.ofOrder = true

lemma settles_of_nextMove {choice : Choice} {store : FleetStore} {stage : Stage} {m : Move}
    (hwf : WellFormed consumer raw) (horder : jobOf consumer raw = none → stage.ofOrder = true)
    (h : nextMove consumer raw choice store stage = some m) :
    (∀ next, m.stage = some next → next.leaving = true → m.settles = true ∨ stage.leaving = true ∨
        ∃ jobId, jobOf consumer raw = some jobId ∧ Ended (boardStatus consumer.host jobId store)) ∧
      (m.stage = none → stage.leaving = true ∨ m.effect = .requeue) ∧
      ∀ jobId record, jobOf consumer raw = some jobId → m.effect = .write jobId record →
        Ended (statusText consumer.host record) → m.settles = true := by
  cases hjob : jobOf consumer raw with
  | none =>
    refine ⟨fun next hnext hleaving => ?_, fun hnone => ?_, nofun⟩
    · rcases order_of_nextMove hwf hjob (horder hjob) h with
        ⟨-, hstage⟩ | ⟨-, -, hsettles⟩ | ⟨-, hstage⟩ | ⟨hstage, -⟩
      · rw [hstage] at hnext
        cases hnext
        cases hleaving
      · exact .inl hsettles
      · rw [hstage] at hnext
        cases hnext
      · rw [hstage] at hnext
        cases hnext
    · rcases order_of_nextMove hwf hjob (horder hjob) h with
        ⟨-, hstage⟩ | ⟨-, hstage, -⟩ | ⟨rfl, -⟩ | ⟨-, heffect⟩
      · rw [hstage] at hnone
        cases hnone
      · rw [hstage] at hnone
        cases hnone
      · exact .inl rfl
      · exact .inr heffect
  | some own =>
    cases JobMove.of_nextMove hjob h with
    | ended status =>
      exact ⟨fun _ _ _ => .inr (.inr ⟨own, rfl, status⟩), nofun, nofun⟩
    | bury command reason => exact ⟨fun _ _ _ => .inr (.inl rfl), nofun, nofun⟩
    | pretended => exact ⟨fun _ _ _ => .inl rfl, nofun, nofun⟩
    | resultWrite => exact ⟨fun _ _ _ => .inl rfl, nofun, fun _ _ _ _ _ => rfl⟩
    | release => exact ⟨nofun, fun _ => .inl rfl, nofun⟩
    | requeue => exact ⟨nofun, fun _ => .inr rfl, nofun⟩
    | queuedWrite record next status =>
      refine ⟨fun _ hnext hleaving => ?_, nofun, fun _ _ _ heffect hended => ?_⟩
      · cases hnext
        cases hleaving
      · cases heffect
        rw [status] at hended
        exact absurd hended (by decide)
    | runningWrite record next status =>
      refine ⟨fun _ hnext hleaving => ?_, nofun, fun _ _ _ heffect hended => ?_⟩
      · cases hnext
        cases hleaving
      · cases heffect
        rw [status] at hended
        exact absurd hended (by decide)
    | _ =>
      refine ⟨fun _ hnext hleaving => ?_, nofun, nofun⟩
      cases hnext
      cases hleaving

lemma settled_of_take {stage : Stage} {m : Move} {other : String} (h : other ∈ s.settled) :
    other ∈ (s.take raw stage m).settled := by
  simp only [FleetState.take]
  split_ifs
  · exact List.mem_cons_of_mem _ h
  · exact h

lemma Kept.take {choice : Choice} {stage : Stage} {m : Move} (h : Kept consumer s)
    (hraw : s.stage raw = some stage)
    (hmove : nextMove consumer raw choice s.store stage = some m) :
    Kept consumer (s.take raw stage m) := by
  have hpushed := h.lanes.pushed_of_staged hraw
  have hsettles (hm : m.settles = true) : raw ∈ (s.take raw stage m).settled := by
    simp [FleetState.take, hm]
  have hspec (hwf : WellFormed consumer raw) :=
    settles_of_nextMove hwf (fun hjob => h.order raw stage hwf hjob hraw) hmove
  have hleft (hwf : WellFormed consumer raw) (hleaving : stage.leaving = true) :
      raw ∈ (s.take raw stage m).settled :=
    settled_of_take (h.leaving raw stage hwf hraw hleaving)
  have hlane : CommandsKept consumer (s.take raw stage m) := by
    intro other hother hwf
    rcases h.kept other hother hwf with hmem | hmem | hmem
    · left
      rcases lane_of_nextMove hmove with ⟨-, heffect | heffect⟩ | ⟨-, hcommands, -⟩
      · simpa [FleetState.take, heffect, Effect.apply, releaseCommand] using hmem
      · simp [FleetState.take, heffect, Effect.apply, requeueClaimed, hmem]
      · simpa [FleetState.take, hcommands] using hmem
    · rcases lane_of_nextMove hmove with ⟨hnone, heffect⟩ | ⟨-, -, hprocessing, -⟩
      · by_cases hsame : other = raw
        · subst hsame
          rcases (hspec hwf).2.1 hnone with hleaving | heffect
          · exact .inr (.inr (hleft hwf hleaving))
          · left
            simp [FleetState.take, heffect, Effect.apply, requeueClaimed]
        · right; left
          have hstays := (List.mem_erase_of_ne hsame).mpr hmem
          rcases heffect with heffect | heffect
          · simpa [FleetState.take, heffect, Effect.apply, releaseCommand] using hstays
          · simpa [FleetState.take, heffect, Effect.apply, requeueClaimed] using hstays
      · right; left
        simpa [FleetState.take, hprocessing] using hmem
    · exact .inr (.inr (settled_of_take hmem))
  refine ⟨h.lanes.take hraw hmove, hlane, ?_, ?_, ?_⟩
  · intro other next hwf hnext hleaving
    rcases stage_update hnext with ⟨rfl, hstage⟩ | ⟨-, hstage⟩
    · rcases (hspec hwf).1 next hstage hleaving with hm | hleaving | ⟨own, hjob, hended⟩
      · exact hsettles hm
      · exact hleft hwf hleaving
      · exact settled_of_take (h.ended other hpushed own hjob hended)
    · exact settled_of_take (h.leaving other next hwf hstage hleaving)
  · intro other hother own hjob hended
    rcases status_of_nextMove hmove own with hstatus | ⟨hown, record, heffect, hstatus⟩
    · refine settled_of_take (h.ended other hother own hjob ?_)
      rw [← hstatus]
      exact hended
    · obtain rfl := h.lanes.jobs other hother raw hpushed own hjob hown
      have hrecord : Ended (statusText consumer.host record) := by
        rw [← hstatus]
        exact hended
      cases JobMove.of_nextMove hjob hmove with
      | resultWrite => exact hsettles rfl
      | queuedWrite record next status =>
        cases heffect
        rw [status] at hrecord
        exact absurd hrecord (by decide)
      | runningWrite record next status =>
        cases heffect
        rw [status] at hrecord
        exact absurd hrecord (by decide)
      | _ => cases heffect
  · intro other next hwf hjob hnext
    rcases stage_update hnext with ⟨rfl, hstage⟩ | ⟨-, hstage⟩
    · rcases order_of_nextMove hwf hjob (h.order other stage hwf hjob hraw) hmove with
        ⟨-, hm⟩ | ⟨-, hm, -⟩ | ⟨-, hm⟩ | ⟨hm, -⟩ <;> rw [hm] at hstage <;> cases hstage <;> rfl
    · exact h.order other next hwf hjob hstage

lemma Kept.crash (h : Kept consumer s) : Kept consumer s.crash :=
  { h with
    lanes := h.lanes.crash
    leaving := nofun
    order := nofun }

lemma recoveryStage_spec (hwf : WellFormed consumer raw) {stage : Stage}
    (h : recoveryStage consumer raw = some stage) :
    stage.leaving = false ∧ (jobOf consumer raw = none → stage.ofOrder = true) := by
  obtain ⟨command, hcommand, hwf⟩ := hwf
  have hloads := loads_of_commandOf hcommand
  simp only [recoveryStage, hloads, Option.some.injEq] at h
  by_cases hsubmit : isSubmit command = true
  · rw [if_pos hsubmit] at h hwf
    cases h
    refine ⟨rfl, fun hjob => ?_⟩
    rw [hjob] at hwf
    cases hwf.1
  · rw [if_neg hsubmit] at h
    cases h
    exact ⟨rfl, fun _ => rfl⟩

theorem Kept.step {e : Event} {t : FleetState} (h : Kept consumer s)
    (hstep : FleetStep consumer s e t) : Kept consumer t := by
  have hlanes := h.lanes.step hstep
  cases hstep with
  | idle => exact h
  | push raw keyed fresh =>
    refine ⟨hlanes, ?_, ?_, ?_, ?_⟩
    · intro other hother hwf
      rw [push_pushed] at hother
      rw [push_commands, push_processing, push_settled]
      rcases List.mem_cons.mp hother with rfl | hother
      · exact .inl List.mem_cons_self
      · rcases h.kept other hother hwf with hmem | hmem
        · exact .inl (List.mem_cons_of_mem _ hmem)
        · exact .inr hmem
    · simpa using h.leaving
    · intro other hother own hjob hended
      rw [push_pushed] at hother
      rw [push_settled]
      rcases push_status s raw keyed own with hsame | ⟨-, hlaunching⟩
      · rw [hsame] at hended
        rcases List.mem_cons.mp hother with rfl | hother
        · rw [fresh.status hjob] at hended
          exact absurd hended (by decide)
        · exact h.ended other hother own hjob hended
      · rw [hlaunching] at hended
        exact absurd hended (by decide)
    · simpa using h.order
  | launch raw unwritten =>
    refine { h with lanes := hlanes, kept := ?_, ended := ?_ }
    · simpa [CommandsKept] using h.kept
    · intro other hother own hjob hended
      rw [status_recordLaunch] at hended
      split_ifs at hended
      · exact absurd hended (by decide)
      · exact h.ended other hother own hjob hended
  | start => exact { h with lanes := hlanes }
  | recover raw stage claimed begins =>
    refine { h with lanes := hlanes, leaving := ?_, order := ?_ }
    · intro other next hwf hnext hleaving
      rcases stage_update hnext with ⟨rfl, hstage⟩ | ⟨-, hstage⟩
      · cases hstage
        rw [(recoveryStage_spec hwf begins).1] at hleaving
        cases hleaving
      · exact h.leaving other next hwf hstage hleaving
    · intro other next hwf hjob hnext
      rcases stage_update hnext with ⟨rfl, hstage⟩ | ⟨-, hstage⟩
      · cases hstage
        exact (recoveryStage_spec hwf begins).2 hjob
      · exact h.order other next hwf hjob hstage
  | claim raw rest oldest recovered =>
    refine { h with lanes := hlanes, kept := ?_, leaving := ?_, order := ?_ }
    · intro other hother hwf
      rcases h.kept other hother hwf with hmem | hmem | hmem
      · rw [oldest] at hmem
        rcases List.mem_append.mp hmem with hmem | hmem
        · exact .inl hmem
        · exact .inr (.inl (List.mem_append_right _ hmem))
      · exact .inr (.inl (List.mem_append_left _ hmem))
      · exact .inr (.inr hmem)
    · intro other next hwf hnext hleaving
      rcases stage_update hnext with ⟨rfl, hstage⟩ | ⟨-, hstage⟩
      · cases hstage
        cases hleaving
      · exact h.leaving other next hwf hstage hleaving
    · intro other next hwf hjob hnext
      rcases stage_update hnext with ⟨rfl, hstage⟩ | ⟨-, hstage⟩
      · cases hstage
        rfl
      · exact h.order other next hwf hjob hstage
  | advance raw choice stage m staged move => exact h.take staged move
  | crash => exact h.crash

/-! ### No submit runs twice -/

section Once

variable {host : Runtime} {store : FleetStore} {stage : Stage} {m : Move}

lemma JobMove.begun (raw : String) (hmove : JobMove host jobId store stage m)
    (h : stage.records = true ∨ stage.early = false ∧ Begun (boardStatus host jobId store)) :
    m.effect ≠ .requeue ∧ (∀ next, m.stage = some next → next.early = false) ∧
      Begun (boardStatus host jobId (m.effect.apply raw store)) := by
  cases hmove with
  | runningWrite record next status =>
    refine ⟨by rintro ⟨⟩, fun _ hnext => ?_, ?_⟩
    · cases hnext
      rfl
    · rw [Effect.apply, boardStatus_setJob, if_pos rfl, status]
      exact .inl rfl
  | resultWrite r record next stage status leaving =>
    refine ⟨by rintro ⟨⟩, fun _ hnext => ?_, ?_⟩
    · cases hnext
      cases stage <;> first | rfl | cases leaving
    · rw [Effect.apply, boardStatus_setJob, if_pos rfl]
      exact status.begun
  | refused | accepted | inline | queuedRead | queuedWrite | runningRead | requeue =>
    rcases h with h | ⟨h, -⟩ <;> cases h
  | waiting status =>
    rcases h with h | ⟨-, h⟩
    · cases h
    · exact absurd h status
  | release =>
    rcases h with h | ⟨-, h⟩
    · cases h
    · exact ⟨by rintro ⟨⟩, by rintro _ ⟨⟩, h⟩
  | _ =>
    rcases h with h | ⟨-, h⟩
    · cases h
    · refine ⟨by rintro ⟨⟩, fun _ hnext => ?_, h⟩
      cases hnext
      rfl

lemma JobMove.broker (hmove : JobMove host jobId store stage m) (h : m.stage = some .broker) :
    stage.records = true ∧ stage.early = true ∧ m.calls = false := by
  cases hmove with
  | runningWrite => exact ⟨rfl, rfl, rfl⟩
  | resultWrite r record next stage status leaving =>
    cases h
    cases leaving
  | _ => cases h

lemma JobMove.calls (hmove : JobMove host jobId store stage m) (h : m.calls = true) :
    stage = .broker := by
  cases hmove with
  | answered | pretended => rfl
  | _ => cases h

/-- What keeps a submit from running twice: a job that has begun is known to the board as such, and
its command does not wait. -/
structure Dispatched (consumer : Consumer) (s : FleetState) : Prop where
  lanes : Lanes consumer s
  begun : ∀ raw ∈ s.started, ∀ jobId, jobOf consumer raw = some jobId →
    raw ∉ s.store.commands ∧ (∀ stage, s.stage raw = some stage → stage.early = false) ∧
      Begun (boardStatus consumer.host jobId s.store)
  broker : ∀ raw, (jobOf consumer raw).isSome → s.stage raw = some .broker →
    raw ∈ s.started ∧ raw ∉ s.called
  called : ∀ raw ∈ s.called, (jobOf consumer raw).isSome → raw ∈ s.started
  once : SubmitsOnce consumer s

lemma Dispatched.take {choice : Choice} (h : Dispatched consumer s) (hraw : s.stage raw = some stage)
    (hmove : nextMove consumer raw choice s.store stage = some m) :
    Dispatched consumer (s.take raw stage m) := by
  have hpushed := h.lanes.pushed_of_staged hraw
  have hclaimed := h.lanes.staged raw stage hraw
  have hstarted {other : String} (hother : other ∈ (s.take raw stage m).started) :
      other = raw ∧ stage.records = true ∨ other ∈ s.started := by
    simp only [FleetState.take] at hother
    split_ifs at hother with hrecords
    · rcases List.mem_cons.mp hother with rfl | hother
      · exact .inl ⟨rfl, hrecords⟩
      · exact .inr hother
    · exact .inr hother
  have hcalled {other : String} (hother : other ∈ (s.take raw stage m).called) :
      other = raw ∧ m.calls = true ∨ other ∈ s.called := by
    simp only [FleetState.take] at hother
    split_ifs at hother with hcalls
    · rcases List.mem_cons.mp hother with rfl | hother
      · exact .inl ⟨rfl, hcalls⟩
      · exact .inr hother
    · exact .inr hother
  refine ⟨h.lanes.take hraw hmove, ?_, ?_, ?_, ?_⟩
  · intro other hother own hjob
    by_cases hsame : other = raw
    · subst hsame
      have hjm := JobMove.of_nextMove hjob hmove
      have hknown : stage.records = true ∨
          stage.early = false ∧ Begun (boardStatus consumer.host own s.store) := by
        rcases hstarted hother with ⟨-, hrecords⟩ | hother
        · exact .inl hrecords
        · obtain ⟨-, hstage, hbegun⟩ := h.begun other hother own hjob
          exact .inr ⟨hstage stage hraw, hbegun⟩
      obtain ⟨hnot, hlate, hbegun⟩ := hjm.begun other hknown
      refine ⟨fun hmem => ?_, fun next hnext => ?_, hbegun⟩
      · rcases waiting_of_take hmove hmem with ⟨-, hrequeue⟩ | hmem
        · exact hnot hrequeue
        · exact h.lanes.not_waiting hclaimed hmem
      · rcases stage_update hnext with ⟨-, hnext⟩ | ⟨hne, -⟩
        · exact hlate next hnext
        · exact absurd rfl hne
    · have hbefore : other ∈ s.started := by
        rcases hstarted hother with ⟨rfl, -⟩ | hother
        · exact absurd rfl hsame
        · exact hother
      obtain ⟨hnot, hlate, hbegun⟩ := h.begun other hbefore own hjob
      refine ⟨fun hmem => ?_, fun next hnext => ?_, ?_⟩
      · rcases waiting_of_take hmove hmem with ⟨rfl, -⟩ | hmem
        · exact hsame rfl
        · exact hnot hmem
      · rcases stage_update hnext with ⟨rfl, -⟩ | ⟨-, hnext⟩
        · exact absurd rfl hsame
        · exact hlate next hnext
      · rcases status_of_nextMove hmove own with hstatus | ⟨hown, -⟩
        · simp only [FleetState.take, hstatus]
          exact hbegun
        · exact absurd (h.lanes.jobs other (h.lanes.started other hbefore) raw hpushed own hjob hown)
            hsame
  · intro other hjob hnext
    obtain ⟨own, hown⟩ := Option.isSome_iff_exists.mp hjob
    rcases stage_update hnext with ⟨rfl, hstage⟩ | ⟨hne, hstage⟩
    · obtain ⟨hrecords, hearly, hcalls⟩ := (JobMove.of_nextMove hown hmove).broker hstage
      refine ⟨by simp [FleetState.take, hrecords], fun hmem => ?_⟩
      rcases hcalled hmem with ⟨-, hm⟩ | hmem
      · cases hcalls.symm.trans hm
      · obtain ⟨-, hlate, -⟩ := h.begun other (h.called other hmem hjob) own hown
        cases hearly.symm.trans (hlate stage hraw)
    · obtain ⟨hbefore, hnot⟩ := h.broker other hjob hstage
      refine ⟨started_of_take hbefore, fun hmem => ?_⟩
      rcases hcalled hmem with ⟨rfl, -⟩ | hmem
      · exact hne rfl
      · exact hnot hmem
  · intro other hother hjob
    obtain ⟨own, hown⟩ := Option.isSome_iff_exists.mp hjob
    rcases hcalled hother with ⟨rfl, hcalls⟩ | hother
    · obtain rfl := (JobMove.of_nextMove hown hmove).calls hcalls
      exact started_of_take (h.broker other hjob hraw).1
    · exact started_of_take (h.called other hother hjob)
  · intro other hjob
    obtain ⟨own, hown⟩ := Option.isSome_iff_exists.mp hjob
    simp only [FleetState.take]
    split_ifs with hcalls
    · by_cases hsame : other = raw
      · subst hsame
        obtain rfl := (JobMove.of_nextMove hown hmove).calls hcalls
        have hnew := (h.broker other hjob hraw).2
        rw [List.count_cons_self, List.count_eq_zero.mpr hnew]
      · rw [List.count_cons_of_ne (Ne.symm hsame)]
        exact h.once other hjob
    · exact h.once other hjob

lemma Dispatched.crash (h : Dispatched consumer s) : Dispatched consumer s.crash :=
  { h with
    lanes := h.lanes.crash
    begun := fun raw hraw jobId hjob =>
      ⟨(h.begun raw hraw jobId hjob).1, nofun, (h.begun raw hraw jobId hjob).2.2⟩
    broker := nofun }

lemma recoveryStage_of_job (hjob : jobOf consumer raw = some jobId)
    (h : recoveryStage consumer raw = some stage) : stage = .inspect := by
  obtain ⟨command, hloads, hsubmit, -⟩ := jobOf_spec hjob
  simp only [recoveryStage, hloads, hsubmit, if_true, Option.some.injEq] at h
  exact h.symm

/-- Every step keeps the dispatches, where a late record of a sender comes in time. -/
theorem Dispatched.step {e : Event} {t : FleetState} (h : Dispatched consumer s)
    (htime : LaunchInTime s e) (hstep : FleetStep consumer s e t) : Dispatched consumer t := by
  have hlanes := h.lanes.step hstep
  cases hstep with
  | idle => exact h
  | push raw keyed fresh =>
    refine ⟨hlanes, ?_, ?_, ?_, ?_⟩
    · intro other hother own hjob
      rw [push_started] at hother
      rw [push_commands, push_stage]
      obtain ⟨hnot, hlate, hbegun⟩ := h.begun other hother own hjob
      refine ⟨fun hmem => ?_, hlate, ?_⟩
      · rcases List.mem_cons.mp hmem with rfl | hmem
        · exact fresh.1 (h.lanes.started other hother)
        · exact hnot hmem
      · rcases push_status s raw keyed own with hsame | ⟨hown, -⟩
        · rw [hsame]
          exact hbegun
        · exact absurd hjob (fresh.job (h.lanes.started other hother) hown)
    · simpa using h.broker
    · simpa using h.called
    · simpa [SubmitsOnce] using h.once
  | launch raw unwritten =>
    refine { h with lanes := hlanes, begun := ?_ }
    intro other hother own hjob
    obtain ⟨hnot, hlate, hbegun⟩ := h.begun other hother own hjob
    refine ⟨by simpa using hnot, hlate, ?_⟩
    rw [status_recordLaunch]
    split_ifs with hown
    · obtain rfl := h.lanes.jobs other (h.lanes.started other hother) raw
        (h.lanes.unwritten raw unwritten) own hjob hown
      exact absurd hother htime
    · exact hbegun
  | start => exact { h with lanes := hlanes }
  | recover raw stage claimed begins =>
    refine { h with lanes := hlanes, begun := ?_, broker := ?_ }
    · intro other hother own hjob
      obtain ⟨hnot, hlate, hbegun⟩ := h.begun other hother own hjob
      refine ⟨hnot, fun next hnext => ?_, hbegun⟩
      rcases stage_update hnext with ⟨rfl, hstage⟩ | ⟨-, hstage⟩
      · cases hstage
        rw [recoveryStage_of_job hjob begins]
        rfl
      · exact hlate next hstage
    · intro other hjob hnext
      rcases stage_update hnext with ⟨rfl, hstage⟩ | ⟨-, hstage⟩
      · obtain ⟨own, hown⟩ := Option.isSome_iff_exists.mp hjob
        cases hstage
        cases recoveryStage_of_job hown begins
      · exact h.broker other hjob hstage
  | claim raw rest oldest recovered =>
    refine { h with lanes := hlanes, begun := ?_, broker := ?_ }
    · intro other hother own hjob
      obtain ⟨hnot, hlate, hbegun⟩ := h.begun other hother own hjob
      rw [oldest, List.mem_append, not_or] at hnot
      refine ⟨hnot.1, fun next hnext => ?_, hbegun⟩
      rcases stage_update hnext with ⟨rfl, -⟩ | ⟨-, hstage⟩
      · exact absurd List.mem_cons_self hnot.2
      · exact hlate next hstage
    · intro other hjob hnext
      rcases stage_update hnext with ⟨-, hstage⟩ | ⟨-, hstage⟩
      · cases hstage
      · exact h.broker other hjob hstage
  | advance raw choice stage m staged move => exact h.take staged move
  | crash => exact h.crash

end Once

/-! ### Runs -/

lemma kept_run (h : Kept consumer s) (events : List Event) :
    Kept consumer (events.foldl (FleetState.step consumer) s) := by
  induction events generalizing s with
  | nil => exact h
  | cons e events ih => exact ih (h.step (FleetStep.of_step s e))

lemma kept_start : Kept consumer {} := by
  refine ⟨lanes_start, nofun, nofun, nofun, nofun⟩

lemma dispatched_start : Dispatched consumer {} := by
  refine ⟨lanes_start, nofun, nofun, nofun, fun _ _ => Nat.zero_le 1⟩

/-- In every run no well-formed command is lost. No submit runs twice in a run in which every sender
without a request key writes the record of its job before the job is recorded as running or as
ended. -/
theorem commands_kept_submits_once (consumer : Consumer) (events : List Event) :
    Runs.Throughout (FleetState.step consumer) (CommandsKept consumer) {} events ∧
      (Runs.Along (FleetState.step consumer) LaunchInTime {} events →
        Runs.Throughout (FleetState.step consumer) (SubmitsOnce consumer) {} events) := by
  constructor
  · intro before _
    exact (kept_run kept_start before).kept
  · intro htime before hbefore
    have hkept := (htime.of_prefix hbefore).preserves
      (P := Dispatched consumer) (fun s e h he => h.step he (FleetStep.of_step s e)) dispatched_start
    exact hkept.once

/-- In every run a command stands in one of the two lists at most, and once; a thread works on, and
the recovery reads, what is in the processing list only. -/
theorem lanes_kept (consumer : Consumer) (events : List Event) :
    Runs.Throughout (FleetState.step consumer) (Lanes consumer) {} events :=
  fun before _ => (kept_run kept_start before).lanes

end Safety

/-! ### A late record -/

def submitText : String :=
  "\x7b\"action\": \"submit\", \"job_id\": \"j1\", \"spec\": \"specs/a.yaml\", \"goal\": \"g\"\x7d"

/-- A consumer that knows how to read the submit. -/
def submitConsumer : Consumer where
  host :=
    { loads := fun raw =>
        if raw = submitText then
          .ok (.obj [("action", .str "submit"), ("job_id", .str "j1"), ("spec", .str "specs/a.yaml"),
            ("goal", .str "g")])
        else .error ("JSONDecodeError", "Expecting value")
      repr := fun _ => ""
      upper := id
      lower := id }
  allowlist := []
  workers := 4
  dryRun := false

/-- The claim of the submit up to the call of the broker. -/
def dispatchEvents : List Event := .claim :: List.replicate 6 (.advance submitText {})

/-- The sender writes its record when the broker has been called; the consumer stops and starts
again. -/
def lateLaunch : List Event :=
  [.push submitText false, .start] ++ dispatchEvents ++
    [.launch submitText, .crash, .start, .recover, .advance submitText {}, .advance submitText {}] ++
    dispatchEvents

def timelyLaunch : List Event :=
  [.push submitText false, .launch submitText, .start] ++ dispatchEvents ++
    [.crash, .start, .recover, .advance submitText {}]

theorem commands_kept_submits_once_timely :
    Runs.Throughout (FleetState.step submitConsumer) (SubmitsOnce submitConsumer) {} timelyLaunch := by
  refine (commands_kept_submits_once submitConsumer timelyLaunch).2 ?_
  exact ⟨trivial, List.not_mem_nil, trivial, trivial, trivial, trivial, trivial, trivial, trivial,
    trivial, trivial, trivial, trivial, trivial, trivial⟩

theorem late_launch_runs_twice : ∃ consumer events,
    ¬ Runs.Throughout (FleetState.step consumer) (SubmitsOnce consumer) {} events := by
  refine ⟨submitConsumer, lateLaunch, fun h => ?_⟩
  have hjob : (jobOf submitConsumer submitText).isSome := by decide
  have hcalled : (lateLaunch.foldl (FleetState.step submitConsumer) {}).called =
      [submitText, submitText] := by rfl
  have honce := h lateLaunch (List.prefix_refl _) submitText hjob
  rw [hcalled] at honce
  simp at honce

end AgenticDynamics.Fleet
