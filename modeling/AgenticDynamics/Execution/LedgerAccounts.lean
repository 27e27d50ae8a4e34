import AgenticDynamics.Library.JsonText
import AgenticDynamics.Library.Lines
import AgenticDynamics.Execution.InvocationLedger

/-!
# The accounts of a run

Each call of the executor is made for one phase, under an ordinal of its own. The record of the
phase settles its calls; a correction takes the record back, and keeps its rows for the next one.
-/

namespace AgenticDynamics.Execution

open Python

/-! ### What is asked of a result -/

def Event.call? : Event → Option Call
  | .invoked call => some call
  | _             => none

/-- The id `_build_attempt_records` gives an attempt. -/
def attemptId (jobId phase : String) (attemptNumber : ℕ) : String :=
  jobId ++ "_" ++ phase ++ "_a" ++ toString attemptNumber

/-- The ids of `_build_attempt_records`: one for each row of an agent phase that has several, and
one for each other agent phase. -/
def attemptIds (jobId : String) (records : List PhaseResult) : List String :=
  (records.filter fun pr => pr.kind ≠ "test").flatMap fun pr =>
    if 1 < pr.attempts.length then
      pr.attempts.mapIdx fun i row => attemptId jobId pr.phase
        (if row.attemptNumber = 0 then i + 1 else row.attemptNumber)
    else [attemptId jobId pr.phase 1]

namespace LoopState

def calls (s : LoopState) (name : String) : List Call :=
  (s.events.filterMap Event.call?).filter fun call => call.phase = name

/-- What the calls made for a phase have cost. -/
def paid (s : LoopState) (name : String) : List Paid := (s.calls name).filterMap Call.paid

/-- Every call was made for an agent phase that has one record; the record of an agent phase settles
the calls made for it, and no other record has a cost; no phase uses an attempt ordinal twice; and
the ids of the attempts differ. -/
structure Accounted (s : LoopState) (jobId : String) : Prop where
  recorded : ∀ call ∈ s.events.filterMap Event.call?, ∃ d ∈ s.phases, d.kind ≠ "test" ∧
    d.name = call.phase ∧ ∃ pr, (s.records.filter fun pr => pr.phase = d.name) = [pr]
  settled : ∀ pr ∈ s.records, pr.kind ≠ "test" → pr.Settles (s.paid pr.phase)
  tests : ∀ pr ∈ s.records, pr.kind = "test" → pr.costUsd = 0 ∧ pr.tokens = 0
  ordinals : ∀ name, ((s.calls name).map Call.attempt).Nodup
  ids : (attemptIds jobId s.records).Nodup

/-- A phase that is executed binds its rows before it raises, and the result of its agent can be
processed. -/
def Orthodox (s : LoopState) (scene : Scene) : Prop :=
  ∀ d, s.Executes d → ¬ d.RaisesUnbound scene ∧
    (d.kind ≠ "test" → scene.agent.unprocessed = none)

/-- Neither what a phase raises nor a note of the commit gate begins like a failed verification. -/
def Unmarked (w : Settings) (s : LoopState) (scene : Scene) : Prop :=
  ∀ d, s.Executes d →
    (∀ repr, s.raises w d scene = some (.exception repr) → startsWith repr "TEST_GATE:" = false) ∧
    ∀ head note, scene.gates.commitPrefix head = .canonicalized note →
      startsWith note "TEST_GATE:" = false

end LoopState

/-! ### Ids -/

lemma append_cons_inj {c : Char} {before before' later later' : List Char} (h : c ∉ later)
    (h' : c ∉ later') (heq : before ++ c :: later = before' ++ c :: later') :
    before = before' ∧ later = later' := by
  have hsplit (before : List Char) {later : List Char} (h : c ∉ later) :
      (before ++ c :: later).reverse.takeWhile (· ≠ c) = later.reverse := by
    rw [List.reverse_append, List.reverse_cons, List.append_assoc, List.takeWhile_append_of_pos]
    · simp
    · intro c' hc'
      have : c' ≠ c := fun hsame => h (hsame ▸ List.mem_reverse.mp hc')
      simpa using this
  have hlater : later = later' := by
    have := hsplit before h
    rw [heq, hsplit before' h'] at this
    exact (List.reverse_injective this).symm
  subst hlater
  exact ⟨List.append_cancel_right heq, rfl⟩

lemma attemptId_inj {jobId phase phase' : String} {n m : ℕ}
    (h : attemptId jobId phase n = attemptId jobId phase' m) : phase = phase' ∧ n = m := by
  have hdigits (k : ℕ) : 'a' ∉ Nat.toDigits 10 k := fun hmem =>
    absurd (Json.isDigit_of_mem hmem) (by decide)
  have htext (phase : String) (k : ℕ) : (attemptId jobId phase k).toList =
      (jobId.toList ++ '_' :: phase.toList ++ ['_']) ++ 'a' :: Nat.toDigits 10 k := by
    simp [attemptId]
  have hlist := congrArg String.toList h
  rw [htext, htext] at hlist
  obtain ⟨hphase, hnumber⟩ := append_cons_inj (hdigits n) (hdigits m) hlist
  refine ⟨?_, Json.toDigits_injective hnumber⟩
  have hcancel := List.append_cancel_right hphase
  exact String.toList_inj.mp (List.cons.inj (List.append_cancel_left hcancel)).2

/-! ### The books of a run -/

variable {w : Settings} {scene : Scene} {s t : LoopState} {d : PhaseDef} {pr : PhaseResult}
  {name : String} {next : Option String}

namespace LoopState

/-- The books of a phase: rows for its calls, which are either kept for its next execution, or on its
record. Only the phase that is next may have calls and no record; and a record is complete where it
may still be taken back. -/
def Booked (w : Settings) (s : LoopState) (next : Option String) (name : String) : Prop :=
  ∃ rows : List AttemptRow, rows.map AttemptRow.paid = s.paid name ∧
    rows.map AttemptRow.attemptNumber = List.range' 1 rows.length ∧
    (s.calls name).map Call.attempt = List.range' w.attemptBase (s.calls name).length ∧
    ((name ∉ s.records.map PhaseResult.phase ∧ s.priorInvocations name = rows ∧
        s.executionCount name = rows.length ∧ (s.calls name).length = rows.length ∧
        (s.calls name = [] ∨ next = some name)) ∨
      ∃ pr ∈ s.records, pr.phase = name ∧ pr.Settles (rows.map AttemptRow.paid) ∧
        pr.attempts = (if 1 < rows.length then rows else []) ∧
        (w.stopOnError = false ∨ s.stopped = true ∨ ((s.calls name).length = rows.length ∧
          (s.priorInvocations name).length < rows.length ∧
          (rows.length = 1 → rows.map AttemptRow.paid = [(pr.costUsd, pr.tokens)]))))

/-- What holds of the books between two turns. -/
structure Bookkeeping (w : Settings) (s : LoopState) (next : Option String) : Prop where
  booked : ∀ d ∈ s.phases, d.kind ≠ "test" → s.Booked w next d.name
  called : ∀ name, s.calls name ≠ [] → (∃ d ∈ s.phases, ¬ d.Expands ∧ d.kind ≠ "test" ∧
    d.name = name) ∧ ¬ (s.resume = true ∧ name ∈ s.completed)
  touched : ∀ name, s.priorInvocations name ≠ [] ∨ s.executionCount name ≠ 0 →
    ∃ d ∈ s.phases, ¬ d.Expands ∧ d.name = name
  kinds : ∀ pr ∈ s.records, ∃ d ∈ s.phases, pr.identity = (d.name, d.kind) ∧
    (w.stopOnError = true → s.stopped = false → ¬ d.Expands)
  tests : ∀ pr ∈ s.records, pr.kind = "test" → pr.costUsd = 0 ∧ pr.tokens = 0
  resumes : s.resume = false → s.completed = []

lemma calls_of_append {more : List Call}
    (h : t.events.filterMap Event.call? = s.events.filterMap Event.call? ++ more)
    (hmore : ∀ call ∈ more, call.phase = d.name) (name : String) :
    t.calls name = s.calls name ++ (if name = d.name then more else []) := by
  rw [calls, calls, h, List.filter_append]
  congr 1
  split_ifs with hname
  · exact List.filter_eq_self.mpr fun call hcall => by simpa [hname] using hmore call hcall
  · refine List.filter_eq_nil_iff.mpr fun call hcall => ?_
    rw [hmore call hcall]
    simpa using fun heq => hname heq.symm

lemma calls_congr (h : t.events.filterMap Event.call? = s.events.filterMap Event.call?)
    (name : String) : t.calls name = s.calls name := by
  rw [calls, calls, h]

lemma Bookkeeping.settle {next' : Option String} (h : s.Bookkeeping w next)
    (hcalls : ∀ name ∈ next, s.calls name = []) : s.Bookkeeping w next' := by
  refine { h with booked := fun d hd hkind => ?_ }
  obtain ⟨rows, hpaid, hnumbers, hordinals, hcase⟩ := h.booked d hd hkind
  refine ⟨rows, hpaid, hnumbers, hordinals, hcase.imp_left ?_⟩
  rintro ⟨hnotin, hprior, hcount, hlength, hnext⟩
  exact ⟨hnotin, hprior, hcount, hlength, .inl (hnext.elim id (hcalls _))⟩

lemma Bookkeeping.of_none (h : s.Bookkeeping w none) : s.Bookkeeping w next :=
  h.settle (by simp)

lemma Bookkeeping.congr (h : s.Bookkeeping w next) (hphases : t.phases = s.phases)
    (hrecords : t.records = s.records) (hprior : t.priorInvocations = s.priorInvocations)
    (hcount : t.executionCount = s.executionCount) (hresume : t.resume = s.resume)
    (hcompleted : t.completed ⊆ s.completed) (hstopped : s.stopped = true → t.stopped = true)
    (hevents : t.events.filterMap Event.call? = s.events.filterMap Event.call?) :
    t.Bookkeeping w next where
  booked d hd hkind := by
    obtain ⟨rows, hpaid, hnumbers, hordinals, hcase⟩ := h.booked d (hphases ▸ hd) hkind
    refine ⟨rows, ?_, hnumbers, ?_, ?_⟩
    · rw [paid, calls_congr hevents]
      exact hpaid
    · rw [calls_congr hevents]
      exact hordinals
    · rw [calls_congr hevents, hrecords, hprior, hcount]
      refine hcase.imp_right ?_
      rintro ⟨pr, hpr, hphase, hsettles, hattempts, hcomplete⟩
      exact ⟨pr, hpr, hphase, hsettles, hattempts, hcomplete.imp_right (Or.imp_left hstopped)⟩
  called name hname := by
    rw [calls_congr hevents] at hname
    rw [hphases, hresume]
    obtain ⟨hphase, hnot⟩ := h.called name hname
    exact ⟨hphase, fun hskip => hnot ⟨hskip.1, hcompleted hskip.2⟩⟩
  touched name := by
    rw [hphases, hprior, hcount]
    exact h.touched name
  kinds pr hpr := by
    rw [hrecords] at hpr
    rw [hphases]
    obtain ⟨d, hd, hid, hexpands⟩ := h.kinds pr hpr
    refine ⟨d, hd, hid, fun hstop hrunning => hexpands hstop ?_⟩
    by_contra hnot
    rw [hstopped (by simpa using hnot)] at hrunning
    cases hrunning
  tests := by
    rw [hrecords]
    exact h.tests
  resumes hfresh := by
    rw [hresume] at hfresh
    have := h.resumes hfresh
    exact List.eq_nil_of_subset_nil (this ▸ hcompleted)

lemma Bookkeeping.record (h : s.Bookkeeping w (some d.name))
    (hnames : (s.phases.map PhaseDef.name).Nodup) (hd : d ∈ s.phases)
    (hnotin : d.name ∉ s.records.map PhaseResult.phase) (hrunning : s.stopped = false)
    (t : LoopState) (pr : PhaseResult) (calls : List Call) (raised : Option Raised)
    (hphases : t.phases = s.phases) (hrecords : t.records = s.records ++ [pr])
    (hid : pr.identity = (d.name, d.kind)) (hprior : t.priorInvocations = s.priorInvocations)
    (hcount : t.executionCount = s.executionCount) (hresume : t.resume = s.resume)
    (hcompleted : t.completed = s.completed)
    (hevents : t.events.filterMap Event.call? = s.events.filterMap Event.call? ++ calls)
    (hphase : ∀ call ∈ calls, call.phase = d.name)
    (hcalls : calls ≠ [] → ¬ d.Expands ∧ d.kind ≠ "test" ∧
      ¬ (s.resume = true ∧ d.name ∈ s.completed))
    (htest : d.kind = "test" → pr.costUsd = 0 ∧ pr.tokens = 0)
    (hbooks : d.kind ≠ "test" → ∃ new,
      pr.Books w d (s.priorInvocations d.name) (s.executionCount d.name) calls raised new)
    (hcomplete : w.stopOnError = false ∨ t.stopped = true ∨ raised = none ∧ ¬ d.Expands) :
    t.Bookkeeping w none := by
  have hprphase : pr.phase = d.name := congrArg Prod.fst hid
  have hprkind : pr.kind = d.kind := congrArg Prod.snd hid
  have htcalls := calls_of_append hevents hphase
  refine ⟨fun d' hd' hkind => ?_, fun name hname => ?_, fun name hname => ?_, fun pr' hpr' => ?_,
    fun pr' hpr' hkind => ?_, fun hfresh => ?_⟩
  · rw [hphases] at hd'
    obtain ⟨rows, hpaid, hnumbers, hordinals, hcase⟩ := h.booked d' hd' hkind
    by_cases hsame : d'.name = d.name
    · have heq : d' = d := List.inj_on_of_nodup_map hnames hd' hd hsame
      subst heq
      rcases hcase with ⟨-, hrows, hexecutions, hlength, -⟩ | ⟨pr', hpr', hphase', -⟩
      · obtain ⟨new, hnew⟩ := hbooks hkind
        rw [hrows, hexecutions] at hnew
        have hof := htcalls d'.name
        rw [if_pos rfl] at hof
        refine ⟨rows ++ new, ?_, ?_, ?_, Or.inr ⟨pr, ?_, hprphase, hnew.settles, hnew.attempts,
          hcomplete.imp_right (Or.imp_right fun hdone => ?_)⟩⟩
        · rw [List.map_append, hpaid, hnew.paid, paid, paid, hof, List.filterMap_append]
        · rw [List.map_append, hnumbers, hnew.numbers, List.length_append, Nat.add_comm rows.length 1]
          exact List.range'_append_1 ..
        · rw [hof, List.map_append, hordinals, hnew.ordinals, ← hlength, List.length_append]
          exact List.range'_append_1 ..
        · rw [hrecords]
          exact List.mem_append_right _ (List.mem_singleton_self _)
        · obtain ⟨hnewlength, hne, hone⟩ := hnew.settled hdone.1
          refine ⟨?_, ?_, hone⟩
          · rw [hof, List.length_append, List.length_append, hlength, hnewlength]
          · rw [hprior, hrows, List.length_append]
            exact Nat.lt_add_of_pos_right (List.length_pos_iff.mpr hne)
      · exact absurd (hphase' ▸ List.mem_map_of_mem hpr') hnotin
    · have hof := htcalls d'.name
      rw [if_neg hsame, List.append_nil] at hof
      refine ⟨rows, by rw [paid, hof]; exact hpaid, hnumbers, by rw [hof]; exact hordinals, ?_⟩
      rw [hof, hrecords, hprior, hcount]
      rcases hcase with ⟨hnotin', hrows, hexecutions, hlength, hnext⟩ |
        ⟨pr', hpr', hphase', hsettles, hattempts, hcomplete'⟩
      · left
        refine ⟨?_, hrows, hexecutions, hlength, hnext.imp_right fun hnext => ?_⟩
        · rw [List.map_append, List.mem_append, not_or, List.map_singleton, List.mem_singleton,
            hprphase]
          exact ⟨hnotin', hsame⟩
        · exact absurd (Option.some.inj hnext).symm hsame
      · right
        refine ⟨pr', List.mem_append_left _ hpr', hphase', hsettles, hattempts, ?_⟩
        rw [hrunning] at hcomplete'
        exact hcomplete'.imp_right fun hor => Or.inr (hor.resolve_left (by decide))
  · rw [hphases, hresume, hcompleted]
    rw [htcalls name] at hname
    by_cases hold : s.calls name = []
    · rw [hold, List.nil_append] at hname
      split_ifs at hname with hsame
      · obtain ⟨hexpands, hkind, hskip⟩ := hcalls hname
        rw [hsame]
        exact ⟨⟨d, hd, hexpands, hkind, rfl⟩, hskip⟩
      · exact absurd rfl hname
    · exact h.called name hold
  · rw [hprior, hcount] at hname
    rw [hphases]
    exact h.touched name hname
  · rw [hphases]
    rw [hrecords] at hpr'
    rcases List.mem_append.mp hpr' with hpr' | hpr'
    · obtain ⟨d', hd', hid', hexpands⟩ := h.kinds pr' hpr'
      exact ⟨d', hd', hid', fun hstop _ => hexpands hstop hrunning⟩
    · rw [List.mem_singleton.mp hpr']
      refine ⟨d, hd, hid, fun hstop hgoes => ?_⟩
      rw [hstop, hgoes] at hcomplete
      exact ((hcomplete.resolve_left (by decide)).resolve_left (by decide)).2
  · rw [hrecords] at hpr'
    rcases List.mem_append.mp hpr' with hpr' | hpr'
    · exact h.tests pr' hpr' hkind
    · rw [List.mem_singleton.mp hpr'] at hkind ⊢
      exact htest (hprkind ▸ hkind)
  · rw [hresume] at hfresh
    rw [hcompleted]
    exact h.resumes hfresh

lemma retained_rows {rows prior : List AttemptRow} {reason : String}
    (hattempts : pr.attempts = if 1 < rows.length then rows else [])
    (hprior : prior.length < rows.length)
    (hone : rows.length = 1 → rows.map AttemptRow.paid = [(pr.costUsd, pr.tokens)])
    {kept : List AttemptRow} (hkept : kept = if pr.attempts = [] then
        [phaseRecordRow pr (prior.length + 1) reason]
      else pr.attempts.mapIdx fun i row => { row with attemptNumber := i + 1 }) :
    kept.map AttemptRow.paid = rows.map AttemptRow.paid ∧
      kept.map AttemptRow.attemptNumber = List.range' 1 kept.length ∧
      kept.length = rows.length := by
  by_cases hmany : 1 < rows.length
  · have hne : rows ≠ [] := fun hnil => by simp [hnil] at hmany
    rw [hattempts, if_pos hmany, if_neg hne] at hkept
    have hlength : kept.length = rows.length := by rw [hkept, List.length_mapIdx]
    refine ⟨?_, ?_, hlength⟩
    · refine List.ext_getElem (by simp [hlength]) fun i _ _ => ?_
      simp [hkept, AttemptRow.paid]
    · refine List.ext_getElem (by simp) fun i _ _ => ?_
      simp [hkept, Nat.add_comm]
  · have hlength : rows.length = 1 := by omega
    have hnil : prior.length = 0 := by omega
    rw [hattempts, if_neg hmany, if_pos rfl, hnil] at hkept
    rw [hkept, hone hlength, hlength]
    exact ⟨rfl, rfl, rfl⟩

lemma Bookkeeping.retain (h : s.Bookkeeping w none)
    (hnames : (s.phases.map PhaseDef.name).Nodup) (hnodup : (s.records.map PhaseResult.phase).Nodup)
    (hd : d ∈ s.phases) (hstop : w.stopOnError = true) (hrunning : s.stopped = false)
    (reason : String) :
    (s.retainAndRemovePhaseRecord d.name reason).Bookkeeping w
      (if d.kind = "test" then none else some d.name) := by
  rw [retainAndRemovePhaseRecord]
  cases hpop : popRecord d.name s.records with
  | none => exact h.of_none
  | some pair =>
    obtain ⟨record, rest⟩ := pair
    obtain ⟨before, later, hrecords, rfl, hphase⟩ := popRecord_eq_some hpop
    have hrest : ∀ pr ∈ before ++ later, pr ∈ s.records := fun pr hpr => by
      rw [hrecords]
      rcases List.mem_append.mp hpr with hpr | hpr
      · exact List.mem_append_left _ hpr
      · exact List.mem_append_right _ (List.mem_cons_of_mem _ hpr)
    have hother : ∀ pr ∈ s.records, pr.phase ≠ d.name → pr ∈ before ++ later := fun pr hpr hne => by
      rw [hrecords] at hpr
      rcases List.mem_append.mp hpr with hpr | hpr
      · exact List.mem_append_left _ hpr
      · rcases List.mem_cons.mp hpr with rfl | hpr
        · exact absurd hphase hne
        · exact List.mem_append_right _ hpr
    have hgone : d.name ∉ (before ++ later).map PhaseResult.phase := by
      rw [hrecords, List.map_append, List.map_cons, hphase, List.nodup_middle,
        ← List.map_append] at hnodup
      exact (List.nodup_cons.mp hnodup).1
    have hmem : record ∈ s.records := by
      rw [hrecords]
      exact List.mem_append_right _ (List.mem_cons_self ..)
    dsimp only
    generalize hkept : (if record.attempts = [] then
        [phaseRecordRow record ((s.priorInvocations d.name).length + 1) reason]
      else record.attempts.mapIdx fun i row => { row with attemptNumber := i + 1 }) = kept
    refine ⟨fun d' hd' hkind => ?_, h.called, fun name hname => ?_,
      fun pr hpr => h.kinds pr (hrest pr hpr), fun pr hpr => h.tests pr (hrest pr hpr), h.resumes⟩
    · obtain ⟨rows, hpaid, hnumbers, hordinals, hcase⟩ := h.booked d' hd' hkind
      by_cases hsame : d'.name = d.name
      · have heq : d' = d := List.inj_on_of_nodup_map hnames hd' hd hsame
        subst heq
        rcases hcase with ⟨hnotin, -⟩ | ⟨pr, hpr, hprphase, -, hattempts, hcomplete⟩
        · exact absurd (hphase ▸ List.mem_map_of_mem hmem) hnotin
        · have hrecord : pr = record :=
            List.inj_on_of_nodup_map hnodup hpr hmem (hprphase.trans hphase.symm)
          subst hrecord
          rw [hstop, hrunning] at hcomplete
          obtain ⟨hlength, hprior, hone⟩ :=
            (hcomplete.resolve_left (by decide)).resolve_left (by decide)
          obtain ⟨hkeptPaid, hkeptNumbers, hkeptLength⟩ :=
            retained_rows hattempts hprior hone hkept.symm
          refine ⟨kept, hkeptPaid.trans hpaid, hkeptNumbers, hordinals, Or.inl ⟨hgone, ?_, ?_, ?_, ?_⟩⟩
          · exact Function.update_self ..
          · exact Function.update_self ..
          · exact hlength.trans hkeptLength.symm
          · exact Or.inr (if_neg hkind)
      · refine ⟨rows, hpaid, hnumbers, hordinals, ?_⟩
        dsimp only
        rw [Function.update_of_ne hsame, Function.update_of_ne hsame]
        rcases hcase with ⟨hnotin, hprior, hcount, hlength, hnext⟩ | ⟨pr, hpr, hprphase, hrecord⟩
        · refine Or.inl ⟨fun hin => hnotin ?_, hprior, hcount, hlength,
            Or.inl (hnext.resolve_right (Option.some_ne_none _).symm)⟩
          obtain ⟨pr, hpr, hprphase⟩ := List.mem_map.mp hin
          exact hprphase ▸ List.mem_map_of_mem (hrest pr hpr)
        · exact Or.inr ⟨pr, hother pr hpr (hprphase ▸ hsame), hprphase, hrecord⟩
    · by_cases hsame : name = d.name
      · obtain ⟨d', hd', hid, hexpands⟩ := h.kinds record hmem
        exact ⟨d', hd', hexpands hstop hrunning, by
          rw [hsame, ← hphase]
          exact (congrArg Prod.fst hid).symm⟩
      · dsimp only at hname
        rw [Function.update_of_ne hsame, Function.update_of_ne hsame] at hname
        exact h.touched name hname

lemma Bookkeeping.rewind (h : s.Bookkeeping w none)
    (hnames : (s.phases.map PhaseDef.name).Nodup) (hnodup : (s.records.map PhaseResult.phase).Nodup)
    (hd : d ∈ s.phases) {producer : PhaseDef} (hproducer : producer ∈ s.phases)
    (hsame : d.kind ≠ "test" → producer = d) (hagent : producer.kind ≠ "test")
    (hstop : w.stopOnError = true) (hrunning : s.stopped = false) (pr : PhaseResult) (target : ℕ) :
    (s.rewind d pr target producer).Bookkeeping w (some producer.name) := by
  simp only [LoopState.rewind]
  generalize "correction: " ++ String.ofList
    ((if pr.error = "" then "verification failed" else pr.error).toList.take 120) = reason
  generalize "correction: re-run after " ++ d.name ++ " failed verification" = reason'
  generalize hu : ({ s with
    completed := s.completed.filter (· ∉ (s.phases.drop target).map PhaseDef.name)
    inheritedPhases := s.inheritedPhases.filter (· ∉ (s.phases.drop target).map PhaseDef.name) } :
      LoopState) = u
  have huphases : u.phases = s.phases := by rw [← hu]
  have hurecords : u.records = s.records := by rw [← hu]
  have hustopped : u.stopped = false := by rw [← hu]; exact hrunning
  have hbooks : u.Bookkeeping w none := by
    rw [← hu]
    exact h.congr rfl rfl rfl rfl rfl (List.filter_subset_self _) id rfl
  have hfirst := hbooks.retain (huphases ▸ hnames) (hurecords ▸ hnodup) (huphases ▸ hd) hstop
    hustopped reason
  obtain ⟨records, prior, count, hretain, hrecords⟩ :=
    retain_eq (hurecords ▸ hnodup : (u.records.map PhaseResult.phase).Nodup) d.name reason
  rw [hretain] at hfirst ⊢
  by_cases hkind : d.kind = "test"
  · rw [if_pos hkind] at hfirst ⊢
    have hrest : (records.map PhaseResult.phase).Nodup := by
      rw [hrecords, hurecords]
      exact hnodup.filter _
    have hsecond := hfirst.retain (huphases ▸ hnames) hrest (huphases ▸ hproducer) hstop hustopped
      reason'
    rw [if_neg hagent] at hsecond
    refine hsecond.congr rfl rfl rfl rfl rfl (List.Subset.refl _) id ?_
    simp [Event.call?]
  · rw [if_neg hkind] at hfirst ⊢
    rw [hsame hkind]
    refine hfirst.congr rfl rfl rfl rfl rfl (List.Subset.refl _) id ?_
    simp [Event.call?]

def nextName (s : LoopState) : Option String :=
  if s.stopped then none else s.phases[s.index]?.map PhaseDef.name

lemma nextName_eq (hrunning : s.stopped = false) (hphase : s.phases[s.index]? = some d) :
    s.nextName = some d.name := by
  rw [nextName, hrunning, hphase]
  rfl

lemma Bookkeeping.untouched (h : s.Bookkeeping w next)
    (hnames : (s.phases.map PhaseDef.name).Nodup) (hd : d ∈ s.phases) (hexpands : d.Expands) :
    s.calls d.name = [] ∧ s.priorInvocations d.name = [] ∧ s.executionCount d.name = 0 := by
  have hnot : ∀ d' ∈ s.phases, ¬ d'.Expands → d'.name ≠ d.name := fun d' hd' hexpands' hsame => by
    have heq : d' = d := List.inj_on_of_nodup_map hnames hd' hd hsame
    exact hexpands' (heq ▸ hexpands)
  refine ⟨?_, ?_, ?_⟩
  · by_contra hne
    obtain ⟨⟨d', hd', hexpands', -, hsame⟩, -⟩ := h.called d.name hne
    exact hnot d' hd' hexpands' hsame
  · by_contra hne
    obtain ⟨d', hd', hexpands', hsame⟩ := h.touched d.name (Or.inl hne)
    exact hnot d' hd' hexpands' hsame
  · by_contra hne
    obtain ⟨d', hd', hexpands', hsame⟩ := h.touched d.name (Or.inr hne)
    exact hnot d' hd' hexpands' hsame

lemma Ordered.next_notMem (h : s.Ordered) (hphase : s.phases[s.index]? = some d) :
    d.name ∉ s.records.map PhaseResult.phase := by
  intro hmem
  have hnames := h.names
  obtain ⟨hlt, hd⟩ := List.getElem?_eq_some_iff.mp hphase
  rw [← List.take_append_drop s.index s.phases, List.map_append] at hnames
  refine List.disjoint_of_nodup_append hnames (h.order.subset hmem) ?_
  rw [List.drop_eq_getElem_cons hlt, hd, List.map_cons]
  exact List.mem_cons_self ..

lemma Bookkeeping.refused (horder : s.Ordered) (h : s.Bookkeeping w (some d.name))
    (hrunning : s.stopped = false) (hphase : s.phases[s.index]? = some d) (hexpands : d.Expands)
    (message : String) : (s.refuseExpansion w d message).Bookkeeping w next := by
  have hd := List.mem_of_getElem? hphase
  obtain ⟨-, hprior, hcount⟩ := h.untouched horder.names hd hexpands
  refine Bookkeeping.of_none (h.record horder.names hd (horder.next_notMem hphase) hrunning
    (s.refuseExpansion w d message) _ [] (some (.exception "")) rfl rfl rfl rfl rfl rfl rfl ?_
    (fun call hcall => nomatch hcall) (fun hne => absurd rfl hne) (fun _ => ⟨rfl, rfl⟩) ?_ ?_)
  · simp [refuseExpansion, Event.call?]
  · intro _
    refine ⟨[], rfl, rfl, rfl, (fun call hcall => nomatch hcall), ?_, ?_,
      (fun hraised => nomatch hraised)⟩
    · rw [hprior]
      exact ⟨rfl, by simp, fun _ => rfl, rfl⟩
    · rw [hprior]
      rfl
  · rw [refuseExpansion]
    cases w.stopOnError with
    | false => exact Or.inl rfl
    | true  => exact Or.inr (Or.inl rfl)

lemma mem_expanded {phases expanded : List PhaseDef} {plan : Except String (List PlanUnit)}
    (h : expandPlanPhases w phases plan = .ok (some expanded))
    (hnames : (phases.map PhaseDef.name).Nodup) :
    (∀ d ∈ phases, ¬ d.Expands → d ∈ expanded) ∧
      ∀ d ∈ expanded, d ∈ phases ∨ ∀ d' ∈ phases, ¬ d'.Expands → d'.name ≠ d.name := by
  obtain ⟨target, units, -, -, hcollision, rfl⟩ := expandPlanPhases_some h
  constructor
  · intro d hd hexpands
    exact List.mem_flatMap.mpr ⟨d, hd, by rw [if_neg hexpands]; exact List.mem_singleton_self _⟩
  · intro d hd
    obtain ⟨d₀, hd₀, hmem⟩ := List.mem_flatMap.mp hd
    split_ifs at hmem with hexpands
    · right
      intro d' hd' hexpands' hsame
      have hreserved : ((phases.filter fun d => ¬ d.Expands).map PhaseDef.name).Nodup :=
        (List.filter_sublist.map _).nodup hnames
      have hnew := nodup_of_collision hcollision hreserved
      refine List.disjoint_of_nodup_append hnew (List.mem_map.mpr ⟨d', ?_, hsame⟩)
        (List.mem_map_of_mem hmem)
      exact List.mem_filter.mpr ⟨hd', by simpa using hexpands'⟩
    · rw [List.mem_singleton.mp hmem]
      exact Or.inl hd₀

lemma Bookkeeping.expanded (horder : s.Ordered) (h : s.Bookkeeping w (some d.name))
    (hphase : s.phases[s.index]? = some d) (hexpands : d.Expands) {phases : List PhaseDef}
    {plan : Except String (List PlanUnit)}
    (hplan : expandPlanPhases w s.phases plan = .ok (some phases)) :
    Bookkeeping w { s with phases } next := by
  have hd := List.mem_of_getElem? hphase
  have hnone : s.Bookkeeping w none := h.settle (by simpa using (h.untouched horder.names hd hexpands).1)
  obtain ⟨hkeep, hnew⟩ := mem_expanded hplan horder.names
  obtain ⟨htake, -⟩ := expandPlanPhases_spec hplan hphase hexpands horder.names
  refine Bookkeeping.of_none ⟨fun d' hd' hkind => ?_, fun name hname => ?_, fun name hname => ?_,
    fun pr hpr => ?_, hnone.tests, hnone.resumes⟩
  · rcases hnew d' hd' with hold | hfresh
    · exact hnone.booked d' hold hkind
    · have hcalls : s.calls d'.name = [] := by
        by_contra hne
        obtain ⟨⟨d₁, hd₁, hexpands₁, -, hsame⟩, -⟩ := hnone.called d'.name hne
        exact hfresh d₁ hd₁ hexpands₁ hsame
      have huntouched : s.priorInvocations d'.name = [] ∧ s.executionCount d'.name = 0 := by
        constructor
        · by_contra hne
          obtain ⟨d₁, hd₁, hexpands₁, hsame⟩ := hnone.touched d'.name (Or.inl hne)
          exact hfresh d₁ hd₁ hexpands₁ hsame
        · by_contra hne
          obtain ⟨d₁, hd₁, hexpands₁, hsame⟩ := hnone.touched d'.name (Or.inr hne)
          exact hfresh d₁ hd₁ hexpands₁ hsame
      have hcalls' : LoopState.calls { s with phases } d'.name = [] := hcalls
      refine ⟨[], by rw [paid, hcalls']; rfl, rfl, by rw [hcalls']; rfl, Or.inl
        ⟨fun hmem => ?_, huntouched.1, huntouched.2, by rw [hcalls']; rfl, Or.inl hcalls'⟩⟩
      -- A record stands for a phase in front of the one that was expanded, and that phase stays.
      obtain ⟨d₁, hd₁, hsame⟩ := List.mem_map.mp (horder.order.subset hmem)
      refine hfresh d₁ (List.mem_of_mem_take hd₁) (fun hexpands₁ => ?_) hsame
      rw [← htake] at hd₁
      exact not_expands_of_expanded hplan d₁ (List.mem_of_mem_take hd₁) hexpands₁
  · obtain ⟨⟨d₁, hd₁, hexpands₁, hkind, hsame⟩, hskip⟩ := hnone.called name hname
    exact ⟨⟨d₁, hkeep d₁ hd₁ hexpands₁, hexpands₁, hkind, hsame⟩, hskip⟩
  · obtain ⟨d₁, hd₁, hexpands₁, hsame⟩ := hnone.touched name hname
    exact ⟨d₁, hkeep d₁ hd₁ hexpands₁, hexpands₁, hsame⟩
  · obtain ⟨d₁, hd₁, hid, -⟩ := hnone.kinds pr hpr
    have hmem := horder.order.subset (List.mem_map_of_mem hpr)
    obtain ⟨d₂, hd₂, hsame⟩ := List.mem_map.mp hmem
    have heq : d₂ = d₁ := List.inj_on_of_nodup_map horder.names (List.mem_of_mem_take hd₂) hd₁
      (hsame.trans (congrArg Prod.fst hid))
    rw [heq, ← htake] at hd₂
    exact ⟨d₁, List.mem_of_mem_take hd₂, hid, fun _ _ =>
      not_expands_of_expanded hplan d₁ (List.mem_of_mem_take hd₂)⟩

end LoopState

/-! ### What is raised is not taken for a failed verification -/

/-- An error that is no failed verification of an agent phase. -/
def Plain (error : String) : Prop :=
  startsWith error "ADMISSION_DENIED" = true ∨ startsWith error "TEST_GATE:" = false

lemma startsWith_line {error head : String} (h : startsWith error head = true) (rest : String) :
    startsWith (error ++ rest) head = true := by
  rw [startsWith, List.isPrefixOf_iff_prefix] at h ⊢
  rw [String.toList_append]
  exact h.trans (List.prefix_append _ _)

lemma startsWith_line_false {error head : String} (h : startsWith error head = false)
    (hline : '\n' ∉ head.toList) (message : String) :
    startsWith (error ++ "\n" ++ message) head = false := by
  rw [startsWith, Bool.eq_false_iff, ne_eq, List.isPrefixOf_iff_prefix] at h ⊢
  intro hhead
  rw [String.append_assoc, String.toList_append] at hhead
  rcases List.prefix_or_prefix_of_prefix hhead (List.prefix_append _ _) with hshort | ⟨rest, hrest⟩
  · exact h hshort
  · rw [← hrest, List.prefix_append_right_inj] at hhead
    cases rest with
    | nil =>
      rw [List.append_nil] at hrest
      exact h (hrest ▸ List.prefix_refl _)
    | cons c rest =>
      rw [String.toList_append] at hhead
      have hcons : c :: rest <+: '\n' :: message.toList := hhead
      obtain ⟨rfl, -⟩ := List.cons_prefix_cons.mp hcons
      exact hline (hrest ▸ List.mem_append_right _ (List.mem_cons_self ..))

lemma plain_denied (message : String) : Plain (Raised.admissionRefused message).error := by
  left
  have hcolon : "ADMISSION_DENIED: " = "ADMISSION_DENIED" ++ ": " := by decide
  have htext : (Raised.admissionRefused message).error = "ADMISSION_DENIED: " ++ message := rfl
  rw [htext, hcolon, String.append_assoc]
  exact startsWith_append ..

lemma Gates.keeps_plain {gates : Gates} (h : ∀ head note,
    gates.commitPrefix head = .canonicalized note → startsWith note "TEST_GATE:" = false) :
    gates.Keeps Plain where
  line error message hplain := hplain.imp
    (fun hdenied => startsWith_line (startsWith_line hdenied _) _)
    fun hunmarked => startsWith_line_false hunmarked (by decide) message
  note head note hnote := Or.inr (h head note hnote)

lemma verificationFailure_eq_false {kind : String} (hkind : kind ≠ "test") (h : Plain pr.error) :
    verificationFailure pr kind = false := by
  rw [Plain] at h
  rw [verificationFailure, decide_eq_false_iff_not]
  simp only [List.any_cons, List.any_nil, hkind, false_or]
  generalize startsWith pr.error "ADMISSION_DENIED" = denied at h ⊢
  generalize startsWith pr.error "TEST_GATE:" = marked at h ⊢
  generalize startsWith pr.error "VERIFIER_REFUSED" = refused
  generalize startsWith pr.error "VERIFIER_ERROR" = raised
  rcases h with rfl | rfl <;> simp

end AgenticDynamics.Execution
