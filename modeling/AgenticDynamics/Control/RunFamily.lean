import AgenticDynamics.Control.RunLifecycle

/-!
# Families of runs

A run that resumes another joins the family of the run it resumes. The family is written with the
row of the run and no call changes it afterwards.
-/

namespace AgenticDynamics.Control

open Python Script

/-! ### The links of the runs -/

/-- The columns that tie a run to its family. -/
def RunRecord.link (r : RunRecord) : String × String × String :=
  (r.runId, r.parentRunId, r.familyId)

/-- What is seen from the links of the runs alone. -/
def OnLinks (P : Tables → Prop) : Prop :=
  ∀ s t, t.runs.map RunRecord.link = s.runs.map RunRecord.link → P s → P t

variable {P : Tables → Prop}

lemma OnLinks.of_runs {s t : Tables} (hP : OnLinks P) (hs : P s) (hruns : t.runs = s.runs) : P t :=
  hP s t (by rw [hruns]) hs

lemma OnLinks.update {s t : Tables} (hP : OnLinks P) (hs : P s) {runId : String}
    {f : RunRecord → RunRecord} (hf : ∀ r, (f r).link = r.link)
    (hruns : t.runs = s.runs.map fun r => if r.runId = runId then f r else r) : P t := by
  refine hP s t ?_ hs
  rw [hruns]
  exact map_rewrite hf (fun r => r.runId = runId) s.runs

lemma Transitioned.onLinks {a : TransitionRun} {target : RunState} {now : String} {s t : Tables}
    (hP : OnLinks P) (h : Transitioned a target now s t) (hs : P s) : P t := by
  obtain ⟨current, -, -, rfl⟩ := h
  exact hP.update hs (f := a.apply current target now) (fun _ => rfl) rfl

lemma Effect.onLinks (hP : OnLinks P) (hcreated : ∀ a s t r row, P s → Created a s t r row → P t)
    {s t : Tables} (h : Effect s t) (hs : P s) : P t := by
  cases h with
  | created a r row h => exact hcreated a s t r row hs h
  | moved a target now h => exact h.onLinks hP hs
  | edited a current _ h =>
    subst h
    exact hP.update hs (f := a.apply current) (fun _ => rfl) rfl
  | beat _ h | started _ _ _ _ _ h | finished _ _ _ _ _ h =>
    subst h
    exact hP.of_runs hs rfl

lemma performAll_onLinks (hP : OnLinks P)
    (hcreated : ∀ a s t r row, P s → Created a s t r row → P t)
    (calls : List (Oracle DbError × Call)) {s : Session Tables} (h0 : s.depth = 0)
    (h : P s.store) : (performAll calls s).depth = 0 ∧ P (performAll calls s).store :=
  performAll_effects (fun _ _ hs he => he.onLinks hP hcreated hs) calls h0 h

/-! ### The tree of a run -/

/-- A run of this family is stored under the id. -/
def InFamily (root id : String) (db : Tables) : Prop :=
  id ≠ "" ∧ (db.getRun id).map RunRecord.familyId = some root

/-- The call stores a new run under the id. -/
def Stores (o : Oracle DbError) (a : CreateRun) (s : Session Tables) (id : String) : Prop :=
  s.store.getRun id = none ∧ ((createRun a o s).2.store.getRun id).isSome

/-- The runs that calls made without a family, each resuming one that was made before it; only the
root resumes none, or one that is not stored. -/
inductive Resumed (start : Session Tables) (root : String) :
    List (Oracle DbError × Call) → String → Prop
  | root {calls o a} (hfamily : a.familyId = "")
      (hparent : a.parentRunId = "" ∨
        (performAll calls start).store.getRun a.parentRunId = none)
      (hstores : Stores o a (performAll calls start) root) :
      Resumed start root (calls ++ [(o, .createRun a)]) root
  | child {calls o a id} (hfamily : a.familyId = "")
      (hparent : Resumed start root calls a.parentRunId)
      (hstores : Stores o a (performAll calls start) id) :
      Resumed start root (calls ++ [(o, .createRun a)]) id
  | later {calls id} (h : Resumed start root calls id) (call : Oracle DbError × Call) :
      Resumed start root (calls ++ [call]) id

lemma getRun_link (db : Tables) (id : String) :
    (db.getRun id).map RunRecord.link = (db.runs.map RunRecord.link).find? fun l => l.1 = id := by
  rw [List.find?_map]
  rfl

lemma inFamily_onLinks (root id : String) : OnLinks (InFamily root id) := by
  rintro s t hlinks ⟨hid, hs⟩
  refine ⟨hid, ?_⟩
  have hget : (t.getRun id).map RunRecord.link = (s.getRun id).map RunRecord.link := by
    rw [getRun_link, getRun_link, hlinks]
  have hfamily := congrArg (Option.map fun l => l.2.2) hget
  rw [Option.map_map, Option.map_map] at hfamily
  exact hfamily.trans hs

lemma InFamily.created {root id : String} {a : CreateRun} {s t : Tables} {r : RunRecord}
    {row : StateTransition} (h : InFamily root id s) (hcreated : Created a s t r row) :
    InFamily root id t := by
  refine ⟨h.1, ?_⟩
  rw [Tables.getRun, hcreated.runs, List.find?_append]
  have hs := h.2
  rw [Tables.getRun] at hs
  cases hget : s.runs.find? fun r => r.runId = id with
  | none => simp [hget] at hs
  | some r' => rwa [hget] at hs

lemma Stores.inFamily {o : Oracle DbError} {a : CreateRun} {s : Session Tables} {id : String}
    (h0 : s.depth = 0) (h : Stores o a s id) :
    InFamily (a.family id s.store) id (createRun a o s).2.store := by
  obtain ⟨hnew, hsome⟩ := h
  obtain ⟨-, hsame | ⟨r, row, hcreated, -⟩⟩ := createRun_creates a o s h0
  · simp [hsame, hnew] at hsome
  · rw [Tables.getRun, hcreated.runs, List.find?_append] at hsome
    rw [Tables.getRun] at hnew
    rw [hnew, Option.none_or, List.find?_singleton] at hsome
    split_ifs at hsome with hid
    · have hid : r.runId = id := of_decide_eq_true hid
      refine ⟨hid ▸ hcreated.named, ?_⟩
      rw [Tables.getRun, hcreated.runs, List.find?_append, hnew, Option.none_or]
      simp [hid, hcreated.family]
    · cases hsome

lemma performAll_concat (calls : List (Oracle DbError × Call)) (call : Oracle DbError × Call)
    (s : Session Tables) :
    performAll (calls ++ [call]) s = call.2.perform call.1 (performAll calls s) := by
  rw [performAll, List.foldl_append]
  rfl

lemma Resumed.inFamily {start : Session Tables} (h0 : start.depth = 0) {root id : String}
    {calls : List (Oracle DbError × Call)} (h : Resumed start root calls id) :
    InFamily root id (performAll calls start).store ∧
      InFamily root root (performAll calls start).store := by
  have hdepth : ∀ calls, (performAll calls start).depth = 0 := fun calls =>
    (performAll_induction (P := fun _ => True) (fun _ _ _ _ => trivial) calls h0 trivial).1
  have hkeeps : ∀ {id} calls call, InFamily root id (performAll calls start).store →
      InFamily root id (performAll (calls ++ [call]) start).store := by
    intro id calls call hs
    rw [performAll_concat]
    exact (performAll_onLinks (inFamily_onLinks root id)
      (fun _ _ _ _ _ hs hcreated => hs.created hcreated) [call] (hdepth calls) hs).2
  induction h with
  | @root calls o a hfamily hparent hstores =>
    have hmade := hstores.inFamily (hdepth calls)
    have hroot : a.family root (performAll calls start).store = root := by
      rcases hparent with hparent | hparent
      · simp [CreateRun.family, hfamily, hparent]
      · simp [CreateRun.family, hfamily, hparent]
    rw [hroot] at hmade
    rw [performAll_concat]
    exact ⟨hmade, hmade⟩
  | @child calls o a id hfamily hparent hstores ih =>
    have hmade := hstores.inFamily (hdepth calls)
    obtain ⟨⟨hnamed, hget⟩, hroot⟩ := ih
    have hsame : a.family id (performAll calls start).store = root := by
      obtain ⟨parent, hparent, hfamily'⟩ := Option.map_eq_some_iff.mp hget
      simp [CreateRun.family, hfamily, hnamed, hparent, hfamily', orElse, hroot.1]
    rw [hsame] at hmade
    refine ⟨?_, hkeeps calls _ hroot⟩
    rw [performAll_concat]
    exact hmade
  | @later calls id h call ih =>
    exact ⟨hkeeps calls call ih.1, hkeeps calls call ih.2⟩

lemma CreateRun.family_ne_empty {a : CreateRun} {rid : String} {db : Tables} (h : rid ≠ "") :
    a.family rid db ≠ "" := by
  simp only [family, orElse]
  split_ifs with hgiven hparent
  · exact hgiven
  · split
    · split_ifs <;> assumption
    · exact h
  · exact h

/-- Whatever the database held and whatever else is called, every run of a tree carries the family
of its root, which is the root's own id, and no call adds a run without a family. -/
theorem family_inherited (db : Tables) (readOnly : Bool) (ticks : ℕ)
    (calls : List (Oracle DbError × Call)) :
    let start : Session Tables := { store := db, readOnly := readOnly, ticks := ticks }
    let c := performAll calls start
    (∀ root id, Resumed start root calls id →
      ∃ r first, c.store.getRun id = some r ∧ c.store.getRun root = some first ∧
        r.familyId = first.familyId ∧ first.familyId = root ∧ r.familyId ≠ "") ∧
      ∀ r ∈ c.store.runs, r.familyId = "" → ∃ old ∈ db.runs, old.link = r.link := by
  intro start c
  constructor
  · intro root id h
    obtain ⟨⟨-, hid⟩, hnamed, hroot⟩ := h.inFamily rfl
    obtain ⟨r, hr, hfamily⟩ := Option.map_eq_some_iff.mp hid
    obtain ⟨first, hfirst, hfamily'⟩ := Option.map_eq_some_iff.mp hroot
    exact ⟨r, first, hr, hfirst, hfamily.trans hfamily'.symm, hfamily', hfamily ▸ hnamed⟩
  · refine (performAll_onLinks (P := fun t => ∀ r ∈ t.runs, r.familyId = "" →
      ∃ old ∈ db.runs, old.link = r.link) ?_ ?_ calls rfl fun r hr _ => ⟨r, hr, rfl⟩).2
    · intro s t hlinks hs r hr hempty
      obtain ⟨r', hr', hsame⟩ := List.mem_map.mp (hlinks ▸ List.mem_map_of_mem hr)
      have hempty' : r'.familyId = "" := (congrArg (fun l => l.2.2) hsame).trans hempty
      obtain ⟨old, hold, hlink⟩ := hs r' hr' hempty'
      exact ⟨old, hold, hlink.trans hsame⟩
    · intro a s t r row hs hcreated r' hr' hempty
      rw [hcreated.runs] at hr'
      rcases List.mem_append.mp hr' with hr' | hr'
      · exact hs r' hr' hempty
      · rw [List.mem_singleton.mp hr', hcreated.family] at hempty
        exact absurd hempty (CreateRun.family_ne_empty hcreated.named)

/-- The creation of a run of this id, which resumes another. -/
def resumingRun (id parent : String) : CreateRun :=
  { specName := "nightly", runId := some id, parentRunId := parent }

/-- A run, one that resumes it, and one that resumes that. -/
def resumingCalls : List (Oracle DbError × Call) :=
  [("run-a", ""), ("run-b", "run-a"), ("run-c", "run-b")].map fun (id, parent) =>
    (.quiet, .createRun (resumingRun id parent))

theorem family_inherited_resuming :
    ∃ r first, (performAll resumingCalls { store := Tables.empty }).store.getRun "run-c" = some r ∧
      (performAll resumingCalls { store := Tables.empty }).store.getRun "run-a" = some first ∧
      r.familyId = first.familyId ∧ first.familyId = "run-a" ∧ r.familyId ≠ "" := by
  refine (family_inherited Tables.empty false 0 resumingCalls).1 "run-a" "run-c" ?_
  have hroot := @Resumed.root { store := Tables.empty } "run-a" [] .quiet (resumingRun "run-a" "")
    rfl (.inl rfl) ⟨rfl, by decide⟩
  have hchild := @Resumed.child _ _ _ .quiet (resumingRun "run-b" "run-a") "run-b" rfl hroot
    ⟨rfl, by decide⟩
  exact @Resumed.child _ _ _ .quiet (resumingRun "run-c" "run-b") _ rfl hchild ⟨rfl, by decide⟩

end AgenticDynamics.Control
