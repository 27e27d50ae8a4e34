import AgenticDynamics.Control.SafeActions
import AgenticDynamics.Control.Promoters

/-!
# One promotion at a time

Calls that claim one after another, record their outcomes in rows of their own, and are left alone
by other writers promote at most once, each with the row in its hands.
-/

namespace AgenticDynamics.Control

open Python Runs Script

/-! ### Transitions -/

lemma Transitioned.getRun_state {a : TransitionRun} {target : RunState} {now : String}
    {s t : Tables} (h : Transitioned a target now s t) :
    ∃ run, t.getRun a.runId = some run ∧ run.state = target := by
  obtain ⟨current, hcur, -, rfl⟩ := h
  have hfound := getRun_map s a.runId
    (show ∀ r, (a.apply current target now r).runId = r.runId from fun _ => rfl) a.runId
  rw [hcur] at hfound
  refine ⟨a.apply current target now current, ?_, rfl⟩
  have hid := (Tables.getRun_mem hcur).2
  simp only [Tables.getRun] at hfound ⊢
  rw [hfound]
  simp [hid]

section Steps

variable {host : Host} {p : Promotion} {a : PromoteArgs} {s t : ControlTables}
  {command : CommandRecord}

lemma claimRun_granted {opening : Option DbError} {o : Oracle DbError} {base : String}
    {claim : RunClaim} (h : claimRun host opening o p.runId p.candidate base s = .ok (t, claim)) :
    opening = none ∧ t.journal = s.journal ∧
      (∃ run, s.db.getRun p.runId = some run ∧
        (strip run.candidateSha = "" ∨ startsWith p.candidate (strip run.candidateSha) = true) ∧
        (run.state = .promotable ∨
          run.state = .promoting ∧ s.journal.FailedPrior p.runId (strip run.candidateSha))) ∧
      ∃ run, t.db.getRun p.runId = some run ∧ run.state = .promoting := by
  cases opening with
  | some e =>
    rw [claimRun] at h
    cases h
  | none =>
    refine ⟨rfl, ?_⟩
    rw [claimRun] at h
    cases hrun : s.db.getRun p.runId with
    | none =>
      rw [hrun] at h
      cases h
    | some run =>
      rw [hrun] at h
      dsimp only at h
      by_cases hbound : strip run.candidateSha ≠ "" ∧
          ¬ startsWith p.candidate (strip run.candidateSha) = true
      · rw [if_pos hbound] at h
        cases h
      rw [if_neg hbound] at h
      have hsha : strip run.candidateSha = "" ∨
          startsWith p.candidate (strip run.candidateSha) = true := by
        by_contra hnot
        exact hbound (not_or.mp hnot)
      by_cases hpromoting : run.state = .promoting
      · rw [if_pos hpromoting] at h
        by_cases hfailed : s.journal.FailedPrior p.runId (strip run.candidateSha)
        · rw [if_pos hfailed] at h
          cases h
          exact ⟨rfl, ⟨run, rfl, hsha, Or.inr ⟨hpromoting, hfailed⟩⟩, run, hrun, hpromoting⟩
        · rw [if_neg hfailed] at h
          cases h
      · rw [if_neg hpromoting] at h
        by_cases hpromotable : run.state = .promotable
        · rw [if_neg (not_not.mpr hpromotable)] at h
          split at h
          · cases h
          · rename_i r session hmove
            cases h
            have hmoved := transitionRun_ensures (claimTransition p.runId p.candidate base) s.db
            obtain ⟨target, now, htarget, -, htransitioned⟩ := hmoved o { store := s.db } rfl _ _ hmove
            cases htarget
            exact ⟨rfl, ⟨run, rfl, hsha, Or.inl hpromotable⟩, htransitioned.getRun_state⟩
        · rw [if_pos hpromotable] at h
          cases h

/-! ### The journal -/

lemma faulty_recordIntent {fault : Option DbFault} {i : RecordCommandIntent} {hex clock : String}
    (hkey : i.idempotencyKey ≠ "") {result : Except DbError CommandRecord}
    (h : faulty fault (ControlTables.recordIntent host i hex clock) s = (t, result)) :
    t.db = s.db ∧ (∀ row ∈ s.journal.rows, row ∈ t.journal.rows) ∧
      ∀ command, result = .ok command → s.journal.withKey? i.idempotencyKey = none →
        command ∈ t.journal.rows ∧ command.state = .intent := by
  have hcall : ∀ u c, ControlTables.recordIntent host i hex clock s = .ok (u, c) →
      u.db = s.db ∧ (∀ row ∈ s.journal.rows, row ∈ u.journal.rows) ∧
        (s.journal.withKey? i.idempotencyKey = none → c ∈ u.journal.rows ∧ c.state = .intent) := by
    intro u c hu
    obtain ⟨hsame, hmem, hstore, hjournal | ⟨hstate, hrows⟩⟩ := recordIntent_eq_ok hu hkey
    · refine ⟨by rw [hstore], by rw [hjournal]; exact fun row hrow => hrow, fun hnone => ?_⟩
      -- the row of the key was there
      rw [hjournal] at hmem
      rw [CommandTable.withKey?, List.find?_eq_none] at hnone
      exact absurd hsame (by simpa using hnone c hmem)
    · refine ⟨by rw [hstore], fun row hrow => ?_, fun _ => ⟨hmem, hstate⟩⟩
      rw [hrows]
      exact List.mem_append_left _ hrow
  cases result with
  | error e =>
    rcases faulty_eq_error h with rfl | ⟨c, hc⟩
    · exact ⟨rfl, fun row hrow => hrow, fun _ hok => by cases hok⟩
    · obtain ⟨hdb, hrows, -⟩ := hcall t c hc
      exact ⟨hdb, hrows, fun _ hok => by cases hok⟩
  | ok command =>
    obtain ⟨-, hok⟩ := faulty_eq_ok.mp h
    obtain ⟨hdb, hrows, hnew⟩ := hcall t command hok
    refine ⟨hdb, hrows, fun c hc hnone => ?_⟩
    cases hc
    exact hnew hnone

lemma attemptKey_ne_empty (n : ℕ) : attemptKey p.actKey n ≠ "" := by
  intro hempty
  have hlist := congrArg String.toList hempty
  rw [attemptKey] at hlist
  split_ifs at hlist <;> simp [Promotion.actKey] at hlist

lemma beginFrom_spec {fault : Option DbFault} {hex clock : String} {attempts : List ℕ}
    {result : Except PromoteError CommandRecord}
    (h : beginFrom host p a fault hex clock s attempts = (t, result)) :
    t.db = s.db ∧ (∀ row ∈ s.journal.rows, row ∈ t.journal.rows) ∧
      ∀ command, result = .ok command → command ∈ t.journal.rows ∧
        (command.state = .intent ∨ command.state = .completed) := by
  induction attempts with
  | nil =>
    cases h
    exact ⟨rfl, fun row hrow => hrow, fun _ hok => by cases hok⟩
  | cons n rest ih =>
    rw [beginFrom] at h
    cases hfound : s.journal.withKey? (attemptKey p.actKey n) with
    | some existing =>
      rw [hfound] at h
      dsimp only at h
      by_cases hstate : existing.state = .intent ∨ existing.state = .completed
      · rw [if_pos hstate] at h
        cases h
        refine ⟨rfl, fun row hrow => hrow, fun command hok => ?_⟩
        cases hok
        exact ⟨List.mem_of_find?_eq_some hfound, hstate⟩
      · rw [if_neg hstate] at h
        exact ih h
    | none =>
      rw [hfound] at h
      dsimp only at h
      rcases hrecord : faulty fault (ControlTables.recordIntent host
        (p.intent a (attemptKey p.actKey n)) hex clock) s with ⟨u, recorded⟩
      obtain ⟨hdb, hrows, hnew⟩ := faulty_recordIntent (attemptKey_ne_empty n) hrecord
      rw [hrecord] at h
      cases recorded with
      | error e =>
        cases h
        exact ⟨hdb, hrows, fun _ hok => by cases hok⟩
      | ok c =>
        cases h
        refine ⟨hdb, hrows, fun command hok => ?_⟩
        cases hok
        obtain ⟨hmem, hstate⟩ := hnew c rfl hfound
        exact ⟨hmem, Or.inl hstate⟩

lemma journalIntent_spec {opening : Option DbError} {fault : Option DbFault} {hex clock : String}
    {result : Except PromoteError CommandRecord}
    (h : journalIntent host p a opening fault hex clock s = (t, result)) :
    t.db = s.db ∧ (∀ row ∈ s.journal.rows, row ∈ t.journal.rows) ∧
      ∀ command, result = .ok command → command ∈ t.journal.rows ∧
        (command.state = .intent ∨ command.state = .completed) := by
  unfold journalIntent at h
  split_ifs at h with hactor
  · cases h
    exact ⟨rfl, fun row hrow => hrow, fun _ hok => by cases hok⟩
  · cases opening with
    | some e =>
      cases h
      exact ⟨rfl, fun row hrow => hrow, fun _ hok => by cases hok⟩
    | none => exact beginFrom_spec h

section Receipt

variable {state : CommandState} {receipt : Dict Json} {fault : Option DbFault} {clock : String}
  {row : CommandRecord}

lemma journalReceipt_cases (host : Host) (command : CommandRecord) (state : CommandState)
    (receipt : Dict Json) (fault : Option DbFault) (clock : String) (s : ControlTables) :
    journalReceipt host command state receipt fault clock s = s ∨
      ∃ settled receiptJson stamp, settled.value = state.value ∧
        (∀ row ∈ s.journal.rows, row.commandId = command.commandId → row.state.isTerminal = false) ∧
        journalReceipt host command state receipt fault clock s =
          { s with journal := s.journal.update command.commandId settled receiptJson stamp } := by
  have hcall : ∀ u x, ControlTables.complete host
      { commandId := command.commandId, state := state.value, receipt := receipt } clock s =
        .ok (u, x) →
      ∃ settled receiptJson stamp, settled.value = state.value ∧
        (∀ row ∈ s.journal.rows, row.commandId = command.commandId → row.state.isTerminal = false) ∧
        u = { s with journal := s.journal.update command.commandId settled receiptJson stamp } := by
    intro u x h
    rw [ControlTables.complete] at h
    obtain ⟨settled, hsettled, h⟩ := bind_eq_ok.mp h
    cases h
    rw [completeCommand] at hsettled
    split at hsettled
    · cases hsettled
    · rename_i current hcurrent
      split at hsettled
      · rename_i found hfound
        cases hsettled
        refine ⟨settled, _, _, by simpa using List.find?_some hfound, ?_, rfl⟩
        intro row hrow hid
        have hsame := CommandTable.command?_of_mem hrow
        rw [hid, hcurrent] at hsame
        cases hsame
        cases hterminal : current.state.isTerminal
        · rfl
        · rw [List.isEmpty_iff.mp hterminal] at hfound
          cases hfound
      · cases hsettled
  rw [journalReceipt]
  rcases hrun : faulty fault (ControlTables.complete host
    { commandId := command.commandId, state := state.value, receipt := receipt } clock) s with ⟨u, result⟩
  cases result with
  | error e =>
    rcases faulty_eq_error hrun with rfl | ⟨x, hx⟩
    · exact Or.inl rfl
    · exact Or.inr (hcall u x hx)
  | ok x =>
    obtain ⟨-, hok⟩ := faulty_eq_ok.mp hrun
    exact Or.inr (hcall u x hok)

lemma journalReceipt_db : (journalReceipt host command state receipt fault clock s).db = s.db := by
  rcases journalReceipt_cases host command state receipt fault clock s with h | ⟨_, _, _, -, -, h⟩
  all_goals rw [h]

lemma mem_journalReceipt (hrow : row ∈ s.journal.rows)
    (hkept : row.commandId ≠ command.commandId ∨ row.state.isTerminal = true) :
    row ∈ (journalReceipt host command state receipt fault clock s).journal.rows := by
  rcases journalReceipt_cases host command state receipt fault clock s
    with h | ⟨settled, receiptJson, stamp, -, hlive, h⟩
  · rwa [h]
  · rw [h]
    have hid : row.commandId ≠ command.commandId := by
      rcases hkept with hid | hterminal
      · exact hid
      · intro hid
        rw [hlive row hrow hid] at hterminal
        cases hterminal
    exact List.mem_map.mpr ⟨row, hrow, CommandTable.settle_of_ne hid⟩

lemma journalReceipt_live (hrow : row ∈ s.journal.rows) (hid : row.commandId = command.commandId)
    (hlive : row.state.isTerminal = false)
    (hfinal : state = .completed ∨ state = .failed ∨ state = .refused)
    (hfault : ∀ e, fault ≠ some (.before e)) :
    ∃ r ∈ (journalReceipt host command state receipt fault clock s).journal.rows,
      r.commandId = command.commandId ∧ r.state = state := by
  have hcall := complete_live host clock
    (c := { commandId := command.commandId, state := state.value, receipt := receipt })
    hrow hlive hid.symm rfl hfinal
  have hstore : (journalReceipt host command state receipt fault clock s).journal.rows =
      s.journal.rows.map (CommandTable.settle row.commandId state (host.dumps (.obj receipt))
        (orElse none clock)) := by
    rw [journalReceipt]
    rcases fault with _ | ⟨e⟩ | ⟨e⟩
    · rw [faulty, hcall]
      rfl
    · exact absurd rfl (hfault e)
    · rw [faulty, hcall]
      rfl
  rw [hstore]
  refine ⟨_, List.mem_map.mpr ⟨row, hrow, rfl⟩, ?_, ?_⟩
  · rw [CommandTable.settle_commandId, hid]
  · rw [CommandTable.settle, if_pos rfl]

end Receipt

/-! ### The close -/

lemma closeRow_eq_some {baseSha squashSha : String} {scene : CloseScene}
    {promotions promotions' : List PromotionRecord}
    (h : closeRow p a baseSha squashSha scene s promotions = some (t, promotions')) :
    t.journal = s.journal ∧
      ∃ r ∈ promotions', r.runId = p.runId ∧ r.candidateSha = strip p.candidate := by
  rw [closeRow] at h
  split at h
  · rename_i run sha _ _ hsha _
    obtain ⟨rfl, -, -⟩ := require_eq_ok hsha
    dsimp only at h
    split_ifs at h
    all_goals
      split at h
      · cases h
      · split at h
        · cases h
        · cases h
          all_goals exact ⟨rfl, _, List.mem_append_right _ (List.mem_singleton_self _), rfl, rfl⟩
  · cases h

end Steps

/-! ### The invariant of orderly runs -/

namespace Promoters

/-- The journal row of the id is there and has no outcome. -/
def Unsettled (id : String) (s : Promoters) : Prop :=
  ∃ row ∈ s.store.journal.rows, row.commandId = id ∧ row.state = .intent

/-- What orderly steps keep. A call's row has no outcome until the call records one, except where a
landed push completed a row that another call was handed too. -/
structure Inv (p : Promotion) (s : Promoters) : Prop where
  unsettled : ∀ caller command, (s.callers caller).command? = some command →
    s.Unsettled command.commandId ∨ s.landed ≠ [] ∧ ¬ (s.callers caller).Holds
  alone : ∀ caller other, (s.callers caller).Holds → (s.callers other).Holds → caller = other
  pushing : ∀ caller, (s.callers caller).Pushing → s.Promoting p ∧ s.landed = []
  reported : ∀ caller, (s.callers caller).Landed → s.landed ≠ []
  once : s.landed.length ≤ 1
  received : ∀ caller id, (caller, id) ∈ s.landed →
    ((s.callers caller).Landed ∧
        (s.callers caller).command?.map CommandRecord.commandId = some id) ∨ s.Completed id
  closed : s.merged = true →
    ∃ r ∈ s.promotions, r.runId = p.runId ∧ r.candidateSha = strip p.candidate

variable {host : Host} {p : Promotion} {s : Promoters} {caller other : ℕ} {promoter : Promoter}

lemma goto_callers : (goto caller promoter s).callers other =
    if other = caller then promoter else s.callers other := by
  rw [goto]
  exact Function.update_apply _ _ _ _

lemma caller_of_holds (hothers : ∀ other, other ≠ caller → ¬ (s.callers other).Holds)
    (hholds : ((goto caller promoter s).callers other).Holds) : other = caller := by
  rw [goto_callers] at hholds
  split_ifs at hholds with h
  · exact h
  · exact absurd hholds (hothers other h)

lemma holds_of_pushing (h : promoter.Pushing) : promoter.Holds := by
  cases promoter <;> first | exact trivial | cases h

lemma holds_of_landed (h : promoter.Landed) : promoter.Holds := by
  cases promoter <;> first | exact trivial | cases h

/-- A step that leaves the calls, the pushes and the row keeps the invariant if rows without an
outcome and completed rows stay. -/
lemma Inv.frame (h : Inv p s) {t : ControlTables} (hdb : t.db = s.store.db)
    (hrows : ∀ row ∈ s.store.journal.rows, row ∈ t.journal.rows) :
    Inv p { s with store := t } where
  unsettled := by
    intro caller command hcommand
    rcases h.unsettled caller command hcommand with ⟨row, hrow, hid, hstate⟩ | hpassed
    · exact Or.inl ⟨row, hrows row hrow, hid, hstate⟩
    · exact Or.inr hpassed
  alone := h.alone
  pushing := by
    intro caller hpushing
    obtain ⟨⟨run, hrun, hstate⟩, hnone⟩ := h.pushing caller hpushing
    refine ⟨⟨run, ?_, hstate⟩, hnone⟩
    show t.db.getRun p.runId = some run
    rw [hdb]
    exact hrun
  reported := h.reported
  once := h.once
  received := by
    intro caller id hmem
    rcases h.received caller id hmem with hlanded | ⟨row, hrow, hid, hstate⟩
    · exact Or.inl hlanded
    · exact Or.inr ⟨row, hrows row hrow, hid, hstate⟩
  closed := h.closed

/-- A call that neither holds the run nor waits for the receipt of a landed push can go to a place
where it does not hold the run either. -/
lemma Inv.goto (h : Inv p s) (hlanded : ¬ (s.callers caller).Landed) (hfree : ¬ promoter.Holds)
    (hopen : ∀ command, promoter.command? = some command →
      s.Unsettled command.commandId ∨ s.landed ≠ []) : Inv p (goto caller promoter s) where
  unsettled := by
    intro c command hcommand
    rw [goto_callers] at hcommand ⊢
    split_ifs at hcommand ⊢ with hc
    · rcases hopen command hcommand with hopen | hsome
      · exact Or.inl hopen
      · exact Or.inr ⟨hsome, hfree⟩
    · exact h.unsettled c command hcommand
  alone := by
    intro c c' hc hc'
    rw [goto_callers] at hc hc'
    split_ifs at hc hc'
    · exact absurd hc hfree
    · exact absurd hc hfree
    · exact absurd hc' hfree
    · exact h.alone c c' hc hc'
  pushing := by
    intro c hc
    rw [goto_callers] at hc
    split_ifs at hc
    · exact absurd (holds_of_pushing hc) hfree
    · exact h.pushing c hc
  reported := by
    intro c hc
    rw [goto_callers] at hc
    split_ifs at hc
    · exact absurd (holds_of_landed hc) hfree
    · exact h.reported c hc
  once := h.once
  received := by
    intro c id hmem
    rw [goto_callers]
    rcases h.received c id hmem with hreceived | hcompleted
    · have hc : c ≠ caller := by
        rintro rfl
        exact hlanded hreceived.1
      rw [if_neg hc]
      exact Or.inl hreceived
    · exact Or.inr hcompleted
  closed := h.closed

lemma Inv.receipt (h : Inv p s) {command : CommandRecord} {state : CommandState}
    {receipt : Dict Json} {fault : Option DbFault} {clock : String}
    (hothers : ∀ other command', (s.callers other).command? = some command' →
      command'.commandId ≠ command.commandId ∨ s.landed ≠ [] ∧ ¬ (s.callers other).Holds) :
    Inv p { s with store := journalReceipt host command state receipt fault clock s.store } where
  unsettled := by
    intro c command' hcommand
    rcases h.unsettled c command' hcommand with ⟨row, hrow, hid, hstate⟩ | hpassed
    · rcases hothers c command' hcommand with hne | hpassed
      · exact Or.inl ⟨row, mem_journalReceipt hrow (Or.inl (hid ▸ hne)), hid, hstate⟩
      · exact Or.inr hpassed
    · exact Or.inr hpassed
  alone := h.alone
  pushing := by
    intro c hc
    obtain ⟨⟨run, hrun, hstate⟩, hnone⟩ := h.pushing c hc
    refine ⟨⟨run, ?_, hstate⟩, hnone⟩
    show (journalReceipt host command state receipt fault clock s.store).db.getRun p.runId = some run
    rw [journalReceipt_db]
    exact hrun
  reported := h.reported
  once := h.once
  received := by
    intro c id hmem
    rcases h.received c id hmem with hlanded | ⟨row, hrow, hid, hstate⟩
    · exact Or.inl hlanded
    · refine Or.inr ⟨row, mem_journalReceipt hrow (Or.inr ?_), hid, hstate⟩
      rw [hstate]
      rfl
  closed := h.closed

lemma Inv.grant (h : Inv p s) {a : PromoteArgs} {command : CommandRecord}
    (hcaller : s.callers caller = .intended a command) (hnone : s.landed = [])
    (hothers : ∀ other, other ≠ caller → ¬ (s.callers other).Holds) {t : ControlTables}
    (hjournal : t.journal = s.store.journal)
    (hpromoting : ∃ run, t.db.getRun p.runId = some run ∧ run.state = .promoting) :
    Inv p (Promoters.goto caller (.claimed a command) { s with store := t }) := by
  have hopen : ∀ c command', (s.callers c).command? = some command' →
      ∃ row ∈ t.journal.rows, row.commandId = command'.commandId ∧ row.state = .intent := by
    intro c command' hcommand
    rw [hjournal]
    rcases h.unsettled c command' hcommand with hopen | ⟨hsome, -⟩
    · exact hopen
    · exact absurd hnone hsome
  exact
    { unsettled := by
        intro c command' hcommand
        rw [goto_callers] at hcommand
        split_ifs at hcommand with hc
        · cases hcommand
          exact Or.inl (hopen caller command (by rw [hcaller]; rfl))
        · exact Or.inl (hopen c command' hcommand)
      alone := fun _ _ hc hc' =>
        (caller_of_holds hothers hc).trans (caller_of_holds hothers hc').symm
      pushing := fun _ _ => ⟨hpromoting, hnone⟩
      reported := by
        intro c hc
        rw [goto_callers] at hc
        split_ifs at hc with h₁
        · cases hc
        · exact absurd (holds_of_landed hc) (hothers c h₁)
      once := h.once
      received := by
        intro c id hmem
        have hmem' : (c, id) ∈ s.landed := hmem
        rw [hnone] at hmem'
        cases hmem'
      closed := h.closed }

lemma Inv.land (h : Inv p s) {a : PromoteArgs} {command : CommandRecord} {baseSha squashSha : String}
    (hcaller : s.callers caller = .claimed a command) :
    Inv p (Promoters.goto caller (.landed a command baseSha squashSha)
      { s with landed := s.landed ++ [(caller, command.commandId)] }) := by
  have hholds : (s.callers caller).Holds := by rw [hcaller]; exact trivial
  have hnone : s.landed = [] := (h.pushing caller (by rw [hcaller]; exact trivial)).2
  have hothers : ∀ other, other ≠ caller → ¬ (s.callers other).Holds :=
    fun other hne hother => hne (h.alone other caller hother hholds)
  have hsome : s.landed ++ [(caller, command.commandId)] ≠ [] := by simp
  exact
    { unsettled := by
        intro c command' hcommand
        rw [goto_callers] at hcommand
        split_ifs at hcommand with hc
        · cases hcommand
          rcases h.unsettled caller command (by rw [hcaller]; rfl) with hopen | ⟨hlanded, -⟩
          · exact Or.inl hopen
          · exact absurd hnone hlanded
        · rcases h.unsettled c command' hcommand with hopen | ⟨hlanded, -⟩
          · exact Or.inl hopen
          · exact absurd hnone hlanded
      alone := fun _ _ hc hc' =>
        (caller_of_holds hothers hc).trans (caller_of_holds hothers hc').symm
      pushing := by
        intro c hc
        rw [goto_callers] at hc
        split_ifs at hc with h₁
        · cases hc
        · exact absurd (holds_of_pushing hc) (hothers c h₁)
      reported := fun _ _ => hsome
      once := by
        show (s.landed ++ [(caller, command.commandId)]).length ≤ 1
        rw [hnone]
        exact le_refl 1
      received := by
        intro c id hmem
        have hmem' : (c, id) ∈ s.landed ++ [(caller, command.commandId)] := hmem
        rw [hnone, List.nil_append, List.mem_singleton] at hmem'
        cases hmem'
        refine Or.inl ?_
        rw [goto_callers, if_pos rfl]
        exact ⟨trivial, rfl⟩
      closed := h.closed }

lemma Inv.fail (h : Inv p s) {command : CommandRecord}
    (hcommand : (s.callers caller).command? = some command)
    (hlanded : ¬ (s.callers caller).Landed) (hown : ∀ other, other ≠ caller → ∀ mine ∈ (s.callers caller).command?,
      ∀ theirs ∈ (s.callers other).command?, theirs.commandId ≠ mine.commandId)
    {state : CommandState} {receipt : Dict Json} {fault : Option DbFault} {clock : String} :
    Inv p (Promoters.goto caller .idle { s with
      store := journalReceipt host command state receipt fault clock s.store }) := by
  -- first the call is over, then its receipt concerns no call
  have hover : Inv p (Promoters.goto caller .idle s) :=
    h.goto hlanded (fun hidle => hidle) fun _ hnone => by cases hnone
  refine hover.receipt fun other command' hother => ?_
  rw [goto_callers] at hother
  split_ifs at hother with hc
  · cases hother
  · exact Or.inl (hown other hc command hcommand command' hother)

lemma Inv.complete (h : Inv p s) {a : PromoteArgs} {command : CommandRecord}
    {baseSha squashSha : String} (hcaller : s.callers caller = .landed a command baseSha squashSha)
    {receipt : Dict Json} {fault : Option DbFault} {clock : String}
    (hfault : ∀ e, fault ≠ some (.before e)) :
    Inv p (Promoters.goto caller (.closing a baseSha squashSha) { s with
      store := journalReceipt host command .completed receipt fault clock s.store }) := by
  have hholds : (s.callers caller).Holds := by rw [hcaller]; exact trivial
  have hsome : s.landed ≠ [] := h.reported caller (by rw [hcaller]; exact trivial)
  have hothers : ∀ other, other ≠ caller → ¬ (s.callers other).Holds :=
    fun other hne hother => hne (h.alone other caller hother hholds)
  have hnopush : ∀ c, ¬ (s.callers c).Pushing := fun c hc => hsome (h.pushing c hc).2
  have hrow : s.Unsettled command.commandId := by
    rcases h.unsettled caller command (by rw [hcaller]; rfl) with hopen | ⟨-, hfree⟩
    · exact hopen
    · exact absurd hholds hfree
  obtain ⟨row, hmem, hid, hstate⟩ := hrow
  obtain ⟨r, hr, hrid, hrstate⟩ :
      ∃ r ∈ (journalReceipt host command .completed receipt fault clock s.store).journal.rows,
        r.commandId = command.commandId ∧ r.state = .completed :=
    journalReceipt_live hmem hid (by rw [hstate]; rfl) (Or.inl rfl) hfault
  exact
    { unsettled := by
        intro c command' hcommand
        rw [goto_callers] at hcommand ⊢
        split_ifs at hcommand ⊢ with hc
        · cases hcommand
        · exact Or.inr ⟨hsome, hothers c hc⟩
      alone := fun _ _ hc hc' =>
        (caller_of_holds hothers hc).trans (caller_of_holds hothers hc').symm
      pushing := by
        intro c hc
        rw [goto_callers] at hc
        split_ifs at hc
        · cases hc
        · exact absurd hc (hnopush c)
      reported := fun _ _ => hsome
      once := h.once
      received := by
        intro c id hc
        refine Or.inr ?_
        rcases h.received c id hc with ⟨hlanded, hcommand⟩ | ⟨row', hrow', hid', hstate'⟩
        · -- the only call whose push landed is this one
          have hsame : c = caller := h.alone c caller (holds_of_landed hlanded) hholds
          rw [hsame, hcaller] at hcommand
          cases hcommand
          exact ⟨r, hr, hrid, hrstate⟩
        · refine ⟨row', mem_journalReceipt hrow' (Or.inr ?_), hid', hstate'⟩
          rw [hstate']
          rfl
      closed := h.closed }

lemma inv_step (h : Inv p s) {i : PromotionStep} (hi : s.Orderly p i) : Inv p (s.step host p i) := by
  cases i with
  | intend caller a opening fault hex clock =>
    rw [step]
    cases hcaller : s.callers caller
    case idle =>
      dsimp only
      rcases hrun : journalIntent host p a opening fault hex clock s.store with ⟨t, result⟩
      obtain ⟨hdb, hrows, hhanded⟩ := journalIntent_spec hrun
      have hframed : Inv p { s with store := t } := h.frame hdb hrows
      cases result with
      | error e => exact hframed
      | ok command =>
        dsimp only
        obtain ⟨hmem, hstate⟩ := hhanded command rfl
        by_cases hcompleted : command.state = .completed
        · rw [if_pos hcompleted]
          exact hframed
        · rw [if_neg hcompleted]
          refine hframed.goto ?_ (fun hholds => hholds) fun command' hcommand => ?_
          · show ¬ (s.callers caller).Landed
            rw [hcaller]
            exact fun hlanded => hlanded
          · cases hcommand
            exact Or.inl ⟨command, hmem, rfl, hstate.resolve_right hcompleted⟩
    all_goals exact h
  | claim caller opening o =>
    rw [step]
    cases hcaller : s.callers caller
    case intended a command =>
      dsimp only
      cases hclaim : claimRun host opening o p.runId p.candidate a.base s.store with
      | error e =>
        refine h.goto ?_ (fun hholds => hholds) fun command' hcommand => ?_
        · rw [hcaller]
          exact fun hlanded => hlanded
        · cases hcommand
          exact (h.unsettled caller command (by rw [hcaller]; rfl)).imp id And.left
      | ok granted =>
        obtain ⟨t, claim⟩ := granted
        dsimp only
        obtain ⟨hopening, hjournal, hclaimable, hpromoting⟩ := claimRun_granted hclaim
        obtain ⟨hnone, hothers⟩ := hi (by rw [hcaller]; exact trivial) hopening hclaimable
        exact h.grant hcaller hnone hothers hjournal hpromoting
    all_goals exact h
  | push caller baseSha result =>
    rw [step]
    cases hcaller : s.callers caller
    case claimed a command =>
      dsimp only
      cases result with
      | error e =>
        refine h.goto ?_ (fun hholds => hholds) fun command' hcommand => ?_
        · rw [hcaller]
          exact fun hlanded => hlanded
        · cases hcommand
          exact (h.unsettled caller command (by rw [hcaller]; rfl)).imp id And.left
      | ok squashSha => exact h.land hcaller
    all_goals exact h
  | receipt caller fault clock =>
    rw [step]
    obtain ⟨hwritten, hown⟩ := hi
    cases hcaller : s.callers caller
    case refusing a command refusal =>
      have hwaiting : ¬ (s.callers caller).Landed := by rw [hcaller]; exact fun hlanded => hlanded
      exact h.fail (by rw [hcaller]; rfl) hwaiting (hown hwaiting)
    case failing a command error =>
      have hwaiting : ¬ (s.callers caller).Landed := by rw [hcaller]; exact fun hlanded => hlanded
      exact h.fail (by rw [hcaller]; rfl) hwaiting (hown hwaiting)
    case landed a command baseSha squashSha =>
      exact h.complete hcaller (hwritten (by rw [hcaller]; exact trivial))
    all_goals exact h
  | close caller scene =>
    rw [step]
    cases hcaller : s.callers caller
    case closing a baseSha squashSha =>
      have hholds : (s.callers caller).Holds := by rw [hcaller]; exact trivial
      have hfree : ¬ (s.callers caller).Landed := by rw [hcaller]; exact fun hlanded => hlanded
      dsimp only
      cases hclose : closeRow p a baseSha squashSha scene s.store s.promotions with
      | none => exact h.goto hfree (fun hidle => hidle) fun command hcommand => by cases hcommand
      | some closed =>
        obtain ⟨t, promotions⟩ := closed
        dsimp only
        obtain ⟨hjournal, hrow⟩ := closeRow_eq_some hclose
        have hclosed : Inv p { s with store := t, promotions := promotions, merged := true } :=
          { h with
            unsettled := by
              intro c command hcommand
              rw [Unsettled]
              show (∃ row ∈ t.journal.rows, _) ∨ _
              rw [hjournal]
              exact h.unsettled c command hcommand
            pushing := by
              intro c hc
              -- the call that closes holds the row, so no other is about to push
              have hsame := h.alone c caller (holds_of_pushing hc) hholds
              rw [hsame] at hc
              have hc' : (s.callers caller).Pushing := hc
              rw [hcaller] at hc'
              cases hc'
            received := by
              intro c id hmem
              rw [Completed]
              show _ ∨ ∃ row ∈ t.journal.rows, _
              rw [hjournal]
              exact h.received c id hmem
            closed := fun _ => hrow }
        exact hclosed.goto hfree (fun hidle => hidle) fun command hcommand => by cases hcommand
    all_goals exact h
  | die caller =>
    exact h.goto hi (fun hholds => hholds) fun command hcommand => by cases hcommand
  | elsewhere db =>
    exact
      { h with
        pushing := fun c hc => ⟨hi c hc, (h.pushing c hc).2⟩ }

lemma inv_start (store : ControlTables) (promotions : List PromotionRecord) :
    Inv p (start store promotions) where
  unsettled := by
    intro caller command hcommand
    cases hcommand
  alone := fun _ _ hholds => absurd hholds fun h => h
  pushing := fun _ hpushing => absurd hpushing fun h => h
  reported := fun _ hlanded => absurd hlanded fun h => h
  once := Nat.zero_le 1
  received := by
    intro caller id hmem
    cases hmem
  closed := by
    intro hmerged
    cases hmerged

lemma Inv.single (h : Inv p s) {i : PromotionStep} (hi : s.Orderly p i) : Single host p s i where
  once := (inv_step h hi).once
  exclusive := by
    rintro caller baseSha result rfl hpushing
    refine ⟨(h.pushing caller hpushing).1, fun other hne hother => hne ?_⟩
    exact h.alone other caller hother (holds_of_pushing hpushing)
  received := (inv_step h hi).received
  closed := (inv_step h hi).closed

end Promoters

open Promoters in
/-- Along every orderly run of any number of calls and other writers, every step promotes at most
once. -/
theorem orderly_promotions_single {host : Host} {p : Promotion} {store : ControlTables}
    {promotions : List PromotionRecord} {steps : List PromotionStep}
    (h : Along (step host p) (Orderly p) (start store promotions) steps) :
    Along (step host p) (Single host p) (start store promotions) steps :=
  h.imp (fun _ _ hs hi => inv_step hs hi) (fun _ _ hs hi => hs.single hi)
    (inv_start store promotions)

/-! ### Two promoters -/

def PromotionStep.caller? : PromotionStep → Option ℕ
  | .intend caller _ _ _ _ _ => caller
  | .claim caller _ _        => caller
  | .push caller _ _         => caller
  | .receipt caller _ _      => caller
  | .close caller _          => caller
  | .die caller              => caller
  | .elsewhere _             => none

namespace Promoters

variable {host : Host} {p : Promotion} {s : Promoters} {other : ℕ}

lemma step_callers {i : PromotionStep} (h : i.caller? ≠ some other) :
    (s.step host p i).callers other = s.callers other := by
  have hgoto : ∀ (caller : ℕ) (promoter : Promoter) (t : Promoters), other ≠ caller →
      (goto caller promoter t).callers other = t.callers other := by
    intro caller promoter t hne
    rw [goto_callers, if_neg hne]
  cases i with
  | elsewhere db => rfl
  | intend caller a opening fault hex clock =>
    have hne : other ≠ caller := fun hsame => h (hsame ▸ rfl)
    rw [step]
    split
    · split
      · rfl
      · split_ifs
        · rfl
        · exact hgoto _ _ _ hne
    · rfl
  | claim caller opening o =>
    have hne : other ≠ caller := fun hsame => h (hsame ▸ rfl)
    rw [step]
    split
    · split <;> exact hgoto _ _ _ hne
    · rfl
  | push caller baseSha result =>
    have hne : other ≠ caller := fun hsame => h (hsame ▸ rfl)
    rw [step]
    split
    · split <;> exact hgoto _ _ _ hne
    · rfl
  | receipt caller fault clock =>
    have hne : other ≠ caller := fun hsame => h (hsame ▸ rfl)
    rw [step]
    split
    · exact hgoto _ _ _ hne
    · exact hgoto _ _ _ hne
    · exact hgoto _ _ _ hne
    · rfl
  | close caller scene =>
    have hne : other ≠ caller := fun hsame => h (hsame ▸ rfl)
    rw [step]
    split
    · split <;> exact hgoto _ _ _ hne
    · rfl
  | die caller => exact hgoto _ _ _ fun hsame => h (hsame ▸ rfl)

lemma foldl_callers {steps : List PromotionStep} (h : ∀ i ∈ steps, i.caller? ≠ some other) :
    (steps.foldl (step host p) s).callers other = s.callers other := by
  induction steps generalizing s with
  | nil => rfl
  | cons i steps ih =>
    rw [List.foldl_cons, ih fun j hj => h j (List.mem_cons_of_mem _ hj),
      step_callers (h i List.mem_cons_self)]

end Promoters

def Promoter.isIdle : Promoter → Bool
  | .idle => true
  | _     => false

lemma Promoter.eq_idle {promoter : Promoter} (h : promoter.isIdle = true) : promoter = .idle := by
  cases promoter
  case idle => rfl
  all_goals cases h

def promotableRun : ControlTables where
  db := { runs := [{
    runId := "run-1", specName := "nightly", workflowRevisionId := "", candidateSha := "abcdef1"
    state := .promotable, model := "", startedAt := "", endedAt := "", ledgerPath := ""
    costUsd := .finite 0 }] }
  gateRows := []
  approvalRows := []
  journal := emptyJournal

def nightlyPromotion : Promotion := { runId := "run-1", spec := "nightly", candidate := "abcdef1" }

def quietOracle : Oracle DbError := { fault := fun _ => none, draw := fun _ => "2026-09-20T10:00:00Z" }

/-- A push that fails, and a second call that promotes the candidate. -/
def retriedPromotion : List PromotionStep :=
  [.intend 0 { operator := "dana", rationale := "ship it" } none none "0a" "2026-09-20T10:00:00Z",
    .claim 0 none quietOracle, .push 0 "ba5e" (.error "conflict"),
    .receipt 0 none "2026-09-20T10:00:01Z",
    .intend 1 { operator := "erin", rationale := "again" } none none "0b" "2026-09-20T10:00:02Z",
    .claim 1 none quietOracle, .push 1 "ba5e" (.ok "50a5"), .receipt 1 none "2026-09-20T10:00:03Z",
    .close 1 { claim := quietOracle, merge := quietOracle }]

/-- Two calls at once, the second of which is refused while the first is about to push. -/
def sharedPromotion : List PromotionStep :=
  [.intend 0 { operator := "dana", rationale := "ship it" } none none "0a" "2026-09-20T10:00:00Z",
    .intend 1 { operator := "erin", rationale := "ship it" } none none "0b" "2026-09-20T10:00:00Z",
    .claim 0 none quietOracle, .claim 1 none quietOracle, .receipt 1 none "2026-09-20T10:00:01Z",
    .push 0 "ba5e" (.ok "50a5"), .receipt 0 none "2026-09-20T10:00:02Z"]

open Promoters in
lemma promotions_computed :
    let from_ := start promotableRun []
    let shared := sharedPromotion.foldl (step journalHost nightlyPromotion) from_
    let before := (retriedPromotion.take 5).foldl (step journalHost nightlyPromotion) from_
    let after := retriedPromotion.foldl (step journalHost nightlyPromotion) from_
    shared.landed = [(0, "cmd-0a")] ∧ (shared.callers 0).command?.isNone ∧
      shared.store.journal.rows.map (fun r => (r.commandId, r.state)) =
        [("cmd-0a", CommandState.refused)] ∧
      before.landed = [] ∧ (before.callers 0).isIdle ∧
      after.landed.length = 1 ∧ after.merged = true := by
  decide +kernel

open Promoters in
/-- The second call promotes the candidate, and only it. -/
theorem retried_promotion_single :
    Along (step journalHost nightlyPromotion) (Single journalHost nightlyPromotion)
      (start promotableRun []) retriedPromotion := by
  obtain ⟨-, -, -, hnone, hidle, -, -⟩ := promotions_computed
  have hothers : ∀ (steps : List PromotionStep) (other : ℕ), (∀ i ∈ steps, i.caller? ≠ some other) →
      ¬ ((steps.foldl (step journalHost nightlyPromotion) (start promotableRun [])).callers
        other).Holds := by
    intro steps other h
    rw [foldl_callers h]
    exact fun hholds => hholds
  refine orderly_promotions_single ⟨trivial, ?_, trivial, ?_, trivial, ?_, trivial, ?_, trivial,
    trivial⟩
  · intro _ _ _
    refine ⟨rfl, fun other hne => hothers (retriedPromotion.take 1) other ?_⟩
    simpa [retriedPromotion, PromotionStep.caller?] using hne.symm
  · refine ⟨fun _ e => by simp, fun _ other hne mine _ theirs htheirs => ?_⟩
    have hother : ((retriedPromotion.take 3).foldl (step journalHost nightlyPromotion)
        (start promotableRun [])).callers other = .idle :=
      foldl_callers (by simpa [retriedPromotion, PromotionStep.caller?] using hne.symm)
    have htheirs' : theirs ∈ Promoter.command? .idle := hother ▸ htheirs
    cases htheirs'
  · intro _ _ _
    refine ⟨hnone, fun other hne => ?_⟩
    by_cases hzero : other = 0
    · have hfirst := Promoter.eq_idle hidle
      rw [hzero]
      intro hholds
      have hholds' : Promoter.Holds .idle := hfirst ▸ hholds
      exact hholds'
    · refine hothers (retriedPromotion.take 5) other ?_
      simpa [retriedPromotion, PromotionStep.caller?] using ⟨Ne.symm hzero, hne.symm⟩
  · refine ⟨fun _ e => by simp, fun _ other hne mine _ theirs htheirs => ?_⟩
    have hsplit : retriedPromotion.take 7 = retriedPromotion.take 5 ++
        [.claim 1 none quietOracle, .push 1 "ba5e" (.ok "50a5")] := rfl
    have hfirst : ((retriedPromotion.take 7).foldl (step journalHost nightlyPromotion)
        (start promotableRun [])).callers 0 =
          ((retriedPromotion.take 5).foldl (step journalHost nightlyPromotion)
            (start promotableRun [])).callers 0 := by
      rw [hsplit, List.foldl_append]
      exact foldl_callers (by simp [PromotionStep.caller?])
    have hother : ((retriedPromotion.take 7).foldl (step journalHost nightlyPromotion)
        (start promotableRun [])).callers other = .idle := by
      by_cases hzero : other = 0
      · rw [hzero, hfirst]
        exact Promoter.eq_idle hidle
      · refine foldl_callers ?_
        simpa [retriedPromotion, PromotionStep.caller?] using ⟨Ne.symm hzero, hne.symm⟩
    have htheirs' : theirs ∈ Promoter.command? .idle := hother ▸ htheirs
    cases htheirs'

open Promoters in
/-- The refusal of the second call closes the row that both were handed, and the push of the first is
not recorded. -/
theorem shared_promotion_unrecorded :
    ¬ Along (step journalHost nightlyPromotion) (Single journalHost nightlyPromotion)
      (start promotableRun []) sharedPromotion := by
  rintro ⟨-, -, -, -, -, -, h, -⟩
  obtain ⟨hlanded, hover, hrows, -⟩ := promotions_computed
  have hmem : (0, "cmd-0a") ∈ (sharedPromotion.foldl (step journalHost nightlyPromotion)
      (start promotableRun [])).landed := by
    rw [hlanded]
    exact List.mem_singleton_self _
  have hreceived : _ ∨ (sharedPromotion.foldl (step journalHost nightlyPromotion)
      (start promotableRun [])).Completed "cmd-0a" := h.received 0 "cmd-0a" hmem
  rcases hreceived with ⟨-, hcommand⟩ | ⟨row, hrow, hid, hstate⟩
  · have hnone := Option.isNone_iff_eq_none.mp hover
    have hcommand' : Option.map CommandRecord.commandId none = some "cmd-0a" := hnone ▸ hcommand
    cases hcommand'
  · have hpair := List.mem_map_of_mem (f := fun r => (r.commandId, r.state)) hrow
    rw [hrows, hid, hstate, List.mem_singleton] at hpair
    cases hpair

end AgenticDynamics.Control
