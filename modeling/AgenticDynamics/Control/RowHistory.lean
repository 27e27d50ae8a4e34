import AgenticDynamics.Control.ZombieSweep

/-!
# What the control database never takes back

Rows of the run and attempt tables are only added, the columns that say whose a row is are written
with it, and an attempt that has finished stays as it is. All of it follows from what one committed
call does to the tables.
-/

namespace AgenticDynamics.Control

open Python Script

variable {s t u : Tables}

/-! ### Rows -/

/-- The columns that are written with the row of a run and never again. -/
def RunRecord.origin (r : RunRecord) : String × String × String × String × String :=
  (r.runId, r.specName, r.startedAt, r.parentRunId, r.familyId)

/-- The rows of the first database are the oldest rows of the second. -/
structure Extends (s t : Tables) : Prop where
  runs : s.runs.map RunRecord.origin <+: t.runs.map RunRecord.origin
  transitions : s.runTransitions <+: t.runTransitions
  attempts : s.stepAttempts.map StepAttemptRecord.origin <+:
    t.stepAttempts.map StepAttemptRecord.origin

lemma Extends.refl (s : Tables) : Extends s s :=
  ⟨List.prefix_rfl, List.prefix_rfl, List.prefix_rfl⟩

lemma Extends.trans (h : Extends s t) (h' : Extends t u) : Extends s u :=
  ⟨h.runs.trans h'.runs, h.transitions.trans h'.transitions, h.attempts.trans h'.attempts⟩

lemma Extends.of_update {runId : String} {f : RunRecord → RunRecord}
    (hf : ∀ r, (f r).origin = r.origin)
    (hruns : t.runs = s.runs.map fun r => if r.runId = runId then f r else r)
    (hrows : s.runTransitions <+: t.runTransitions) (hattempts : t.stepAttempts = s.stepAttempts) :
    Extends s t := by
  refine ⟨?_, hrows, by rw [hattempts]⟩
  rw [hruns, map_rewrite hf fun r => r.runId = runId]

lemma Effect.extends (h : Effect s t) : Extends s t := by
  cases h with
  | created a r row h hattempts =>
    refine ⟨?_, ?_, by rw [hattempts]⟩
    · rw [h.runs, List.map_append]
      exact List.prefix_append _ _
    · rw [h.rows]
      exact List.prefix_append _ _
  | moved a target now h =>
    obtain ⟨current, -, -, rfl⟩ := h
    exact .of_update (f := a.apply current target now) (fun _ => rfl) rfl (List.prefix_append _ _) rfl
  | edited a current _ h =>
    subst h
    exact .of_update (f := a.apply current) (fun _ => rfl) rfl List.prefix_rfl rfl
  | beat beats h => exact h ▸ ⟨List.prefix_rfl, List.prefix_rfl, List.prefix_rfl⟩
  | started row n _ _ _ h =>
    subst h
    refine ⟨List.prefix_rfl, List.prefix_rfl, ?_⟩
    rw [List.map_append]
    exact List.prefix_append _ _
  | finished attemptId f n hf _ h =>
    subst h
    refine ⟨List.prefix_rfl, List.prefix_rfl, ?_⟩
    rw [map_rewrite hf fun a => a.attemptId = attemptId]

lemma Extends.getRun (h : Extends s t) {runId : String} (hrun : (s.getRun runId).isSome) :
    (t.getRun runId).isSome := by
  rw [Tables.getRun, List.find?_isSome] at hrun ⊢
  obtain ⟨r, hr, hid⟩ := hrun
  obtain ⟨r', hr', horigin⟩ := List.mem_map.mp (h.runs.subset (List.mem_map_of_mem hr))
  have hsame : r'.runId = r.runId := congrArg Prod.fst horigin
  exact ⟨r', hr', by rwa [hsame]⟩

/-! ### Attempts -/

/-- No two attempts share an id, or a number of one step; every attempt belongs to a stored run. -/
structure AttemptsKept (db : Tables) : Prop where
  ids : (db.stepAttempts.map StepAttemptRecord.attemptId).Nodup
  numbers : (db.stepAttempts.map fun a => (a.runId, a.stepId, a.attemptNo)).Nodup
  owned : ∀ a ∈ db.stepAttempts, (db.getRun a.runId).isSome

lemma AttemptsKept.of_origins (hs : AttemptsKept s) (h : Extends s t)
    (horigins : t.stepAttempts.map StepAttemptRecord.origin =
      s.stepAttempts.map StepAttemptRecord.origin) : AttemptsKept t := by
  refine ⟨?_, ?_, fun a ha => ?_⟩
  · have hids := congrArg (List.map Prod.fst) horigins
    rw [List.map_map, List.map_map] at hids
    exact hids ▸ hs.ids
  · have hnumbers := congrArg (List.map fun origin => origin.2.1) horigins
    rw [List.map_map, List.map_map] at hnumbers
    exact hnumbers ▸ hs.numbers
  · obtain ⟨b, hb, horigin⟩ := List.mem_map.mp (horigins ▸ List.mem_map_of_mem ha)
    have hrun : b.runId = a.runId := congrArg (fun origin => origin.2.1.1) horigin
    exact hrun ▸ h.getRun (hs.owned b hb)

lemma AttemptsKept.effect (hs : AttemptsKept s) (h : Effect s t) :
    AttemptsKept t ∧ ∀ a ∈ s.stepAttempts, a.isTerminal = true → a ∈ t.stepAttempts := by
  have hextends := h.extends
  have hsame (hattempts : t.stepAttempts = s.stepAttempts) : AttemptsKept t ∧
      ∀ a ∈ s.stepAttempts, a.isTerminal = true → a ∈ t.stepAttempts :=
    ⟨hs.of_origins hextends (by rw [hattempts]), fun a ha _ => by rwa [hattempts]⟩
  cases h with
  | created _ _ _ _ hattempts => exact hsame hattempts
  | moved _ _ _ h =>
    obtain ⟨current, -, -, rfl⟩ := h
    exact hsame rfl
  | edited _ _ _ h | beat _ h =>
    subst h
    exact hsame rfl
  | started row n hid hnumber hrun h =>
    subst h
    refine ⟨⟨?_, ?_, ?_⟩, fun a ha _ => List.mem_append_left _ ha⟩
    · rw [List.map_append, List.nodup_append]
      refine ⟨hs.ids, List.nodup_singleton _, ?_⟩
      rintro id hid' _ hrow rfl
      rw [Option.not_isSome_iff_eq_none, Tables.getAttempt, List.find?_eq_none] at hid
      obtain ⟨a, ha, hsame⟩ := List.mem_map.mp hid'
      exact hid a ha (decide_eq_true (hsame.trans (List.mem_singleton.mp hrow)))
    · rw [List.map_append, List.nodup_append]
      refine ⟨hs.numbers, List.nodup_singleton _, ?_⟩
      rintro number hnumber' _ hrow rfl
      obtain ⟨a, ha, hsame⟩ := List.mem_map.mp hnumber'
      refine hnumber (List.any_eq_true.mpr ⟨a, ha, ?_⟩)
      simpa using hsame.trans (List.mem_singleton.mp hrow)
    · intro a ha
      rcases List.mem_append.mp ha with ha | ha
      · exact hs.owned a ha
      · rw [List.mem_singleton.mp ha]
        exact Option.isSome_iff_ne_none.mpr fun hnone => hrun (Option.isNone_iff_eq_none.mpr hnone)
  | finished attemptId f n hf hlive h =>
    subst h
    refine ⟨hs.of_origins hextends (map_rewrite hf (fun a => a.attemptId = attemptId) _), ?_⟩
    intro a ha hterm
    refine List.mem_map.mpr ⟨a, ha, if_neg fun hid => hlive ?_⟩
    exact List.any_eq_true.mpr ⟨a, ha, by simp [hid, hterm]⟩

/-! ### Calls -/

lemma AttemptsKept.perform (hs : AttemptsKept s) (call : OrchestratorCall) :
    AttemptsKept (call.perform s) ∧
      ∀ a ∈ s.stepAttempts, a.isTerminal = true → a ∈ (call.perform s).stepAttempts := by
  refine call.perform_keeps (P := fun t => AttemptsKept t ∧
    ∀ a ∈ s.stepAttempts, a.isTerminal = true → a ∈ t.stepAttempts) ?_ ?_ ⟨hs, fun _ h _ => h⟩
  · rintro t u ⟨ht, hkept⟩ he
    obtain ⟨hu, hfinal⟩ := ht.effect he
    exact ⟨hu, fun a ha hterm => hfinal a (hkept a ha hterm) hterm⟩
  · rintro t rows ⟨ht, hkept⟩
    exact ⟨⟨ht.ids, ht.numbers, ht.owned⟩, hkept⟩

/-- Whatever is called, with whichever refusals and faults: runs, transitions and attempts are only
added behind those that are stored, and what a row says of its own origin stays. -/
theorem rows_never_taken_back (db : Tables) (calls : List OrchestratorCall) :
    Extends db (calls.foldl OrchestratorCall.perform db) :=
  List.foldlRecOn calls _ (.refl db) fun _ h call _ =>
    call.perform_keeps (fun _ _ h he => h.trans he.extends)
      (fun _ _ h => ⟨h.runs, h.transitions, h.attempts⟩) h

/-- After any calls on an empty database the attempts are kept apart, and a finished one is found
unchanged whatever is called afterwards. -/
theorem attempts_final (calls : List OrchestratorCall) :
    let db := calls.foldl OrchestratorCall.perform Tables.empty
    AttemptsKept db ∧ ∀ a ∈ db.stepAttempts, a.isTerminal = true → ∀ later : List OrchestratorCall,
      (later.foldl OrchestratorCall.perform db).getAttempt a.attemptId = some a := by
  intro db
  have hdb : AttemptsKept db := List.foldlRecOn calls _ ⟨List.nodup_nil, List.nodup_nil, nofun⟩
    fun _ hs call _ => (hs.perform call).1
  refine ⟨hdb, fun a ha hterm later => ?_⟩
  have hlater : AttemptsKept (later.foldl OrchestratorCall.perform db) ∧
      a ∈ (later.foldl OrchestratorCall.perform db).stepAttempts := by
    refine List.foldlRecOn (motive := fun t => AttemptsKept t ∧ a ∈ t.stepAttempts) later _ ?_ ?_
    · exact ⟨hdb, ha⟩
    · rintro t ⟨ht, hmem⟩ call -
      obtain ⟨hnext, hfinal⟩ := ht.perform call
      exact ⟨hnext, hfinal a hmem hterm⟩
  exact find?_of_key hlater.1.ids hlater.2

end AgenticDynamics.Control
