import AgenticDynamics.Knowledge.BeliefChain

/-!
# Outcomes that a belief counts

A verdict is a new outcome of a belief when its citations name the spec and not the run. Every
outcome that is counted adds a citation, in which the names of later verdicts are looked for as
well; the count is that of the runs as long as no name is found in the citation of another outcome.
-/

namespace AgenticDynamics.Knowledge.Beliefs

open Python Json StableSort Runs
open KnowledgeRecord

/-! ### Outcomes and citations -/

section Outcomes

variable (host : Host)

def Names (texts : List String) (name : String) : Prop :=
  ∃ text ∈ texts, namedIn host name (.str text)

instance (texts : List String) (name : String) : Decidable (Names host texts name) :=
  inferInstanceAs (Decidable (∃ text ∈ texts, _))

def VerdictFields.citation (o : VerdictFields) : String := outcomeCitation o.specName o.runId

/-- The texts name the spec of the outcome, and not its run. -/
def Bears (texts : List String) (o : VerdictFields) : Prop :=
  Names host texts o.specName ∧ ¬ Names host texts o.runId

instance (texts : List String) (o : VerdictFields) : Decidable (Bears host texts o) :=
  inferInstanceAs (Decidable (_ ∧ _))

/-- The runs of the verdicts that are new outcomes at the start, each once. -/
def distinctRuns (texts : List String) (os : List VerdictFields) : List String :=
  ((os.filter fun o => Bears host texts o).map VerdictFields.runId).dedup

/-- The first verdict of each of these runs. -/
def outcomes (texts : List String) (os : List VerdictFields) : List VerdictFields :=
  os.foldl (fun seen o =>
    if Bears host texts o ∧ o.runId ∉ seen.map VerdictFields.runId then seen ++ [o] else seen) []

/-- The verdicts that are new outcomes when they come. -/
def countedOutcomes (texts : List String) (os : List VerdictFields) : List VerdictFields :=
  os.foldl (fun seen o =>
    if Bears host (texts ++ seen.map VerdictFields.citation) o then seen ++ [o] else seen) []

/-- No name of a verdict is mistaken: the run of a new outcome is not named by the citation of
another run, and a spec that the texts do not name by the citation of a run that is another one. -/
structure Clear (texts : List String) (seen : List VerdictFields) (o : VerdictFields) : Prop where
  run : Bears host texts o → o.runId ∉ seen.map VerdictFields.runId →
    ¬ Names host (seen.map VerdictFields.citation) o.runId
  spec : ¬ Names host texts o.specName → ¬ Names host texts o.runId →
    Names host (seen.map VerdictFields.citation) o.specName →
      Names host (seen.map VerdictFields.citation) o.runId

/-- Lower case does not look beyond a blank. -/
def LowersWords : Prop := ∀ a b, host.lower (a ++ " " ++ b) = host.lower a ++ " " ++ host.lower b

variable {host} {texts : List String} {os seen : List VerdictFields} {o : VerdictFields}

lemma names_append {more : List String} {name : String} :
    Names host (texts ++ more) name ↔ Names host texts name ∨ Names host more name := by
  simp only [Names, List.mem_append, or_and_right, exists_or]

lemma namedIn_citation (hlower : LowersWords host) (o : VerdictFields) :
    namedIn host o.runId (.str o.citation) := by
  have hsplit : o.citation = (o.specName ++ " wave verdict") ++ " " ++ o.runId := by
    have hwords : " wave verdict " = " wave verdict" ++ " " := by decide
    rw [VerdictFields.citation, outcomeCitation, hwords, ← String.append_assoc]
  rw [namedIn, decide_eq_true_eq, Json.text, hsplit, hlower, String.toList_append]
  exact (List.suffix_append _ _).isInfix

lemma names_of_run (hlower : LowersWords host) (h : o.runId ∈ seen.map VerdictFields.runId) :
    Names host (seen.map VerdictFields.citation) o.runId := by
  obtain ⟨o', ho', hrun⟩ := List.mem_map.mp h
  refine ⟨o'.citation, List.mem_map_of_mem ho', ?_⟩
  rw [← hrun]
  exact namedIn_citation hlower o'

lemma outcomes_concat : outcomes host texts (os ++ [o]) =
    if Bears host texts o ∧ o.runId ∉ (outcomes host texts os).map VerdictFields.runId then
      outcomes host texts os ++ [o]
    else outcomes host texts os := by
  rw [outcomes, List.foldl_concat]
  rfl

lemma countedOutcomes_concat : countedOutcomes host texts (os ++ [o]) =
    if Bears host (texts ++ (countedOutcomes host texts os).map VerdictFields.citation) o then
      countedOutcomes host texts os ++ [o]
    else countedOutcomes host texts os := by
  rw [countedOutcomes, List.foldl_concat]
  rfl

lemma outcomes_runs : ((outcomes host texts os).map VerdictFields.runId).Nodup ∧
    ∀ run, run ∈ (outcomes host texts os).map VerdictFields.runId ↔
      run ∈ (os.filter fun o => Bears host texts o).map VerdictFields.runId := by
  induction os using List.reverseRecOn with
  | nil => simp [outcomes]
  | append_singleton os o ih =>
    obtain ⟨hnodup, hmem⟩ := ih
    rw [outcomes_concat, List.filter_append, List.map_append]
    by_cases hbears : Bears host texts o
    · rw [List.filter_cons_of_pos (by simpa using hbears)]
      by_cases hseen : o.runId ∈ (outcomes host texts os).map VerdictFields.runId
      · rw [if_neg fun h => h.2 hseen]
        refine ⟨hnodup, fun run => ?_⟩
        rw [hmem, List.mem_append, ← hmem]
        constructor
        · exact .inl
        · rintro (hrun | hrun)
          · exact hrun
          · have heq : run = o.runId := by simpa using hrun
            exact heq ▸ hseen
      · rw [if_pos ⟨hbears, hseen⟩, List.map_append]
        constructor
        · exact List.nodup_append.mpr ⟨hnodup, List.nodup_singleton _, by
            rintro run hrun run' hrun' rfl
            have heq : run = o.runId := by simpa using hrun'
            exact hseen (heq ▸ hrun)⟩
        · intro run
          rw [List.mem_append, List.mem_append, hmem]
          rfl
    · rw [List.filter_cons_of_neg (by simpa using hbears), if_neg fun h => hbears h.1]
      refine ⟨hnodup, fun run => ?_⟩
      rw [hmem]
      simp

lemma outcomes_length : (outcomes host texts os).length = (distinctRuns host texts os).length := by
  obtain ⟨hnodup, hmem⟩ : ((outcomes host texts os).map VerdictFields.runId).Nodup ∧ _ :=
    outcomes_runs
  have hperm : ((outcomes host texts os).map VerdictFields.runId).Perm
      (distinctRuns host texts os) := by
    refine (List.perm_ext_iff_of_nodup hnodup (List.nodup_dedup _)).mpr fun run => ?_
    rw [hmem]
    exact List.mem_dedup.symm
  rw [← hperm.length_eq, List.length_map]

lemma bears_iff_clear (hlower : LowersWords host) :
    (Bears host (texts ++ seen.map VerdictFields.citation) o ↔
      Bears host texts o ∧ o.runId ∉ seen.map VerdictFields.runId) ↔ Clear host texts seen o := by
  have hown : o.runId ∈ seen.map VerdictFields.runId →
      Names host (seen.map VerdictFields.citation) o.runId := names_of_run hlower
  rw [Bears, Bears, names_append, names_append]
  constructor
  · intro h
    refine ⟨fun hbears hnew hnamed => ?_, fun hspec hrun hnamed => ?_⟩
    · exact (h.mpr ⟨hbears, hnew⟩).2 (.inr hnamed)
    · by_contra hnone
      exact hspec (h.mp ⟨.inr hnamed, fun hany => hany.elim hrun hnone⟩).1.1
  · rintro ⟨hrun, hspec⟩
    constructor
    · rintro ⟨hnamed, hfree⟩
      have hfree₀ : ¬ Names host texts o.runId := fun h => hfree (.inl h)
      have hfree₁ : ¬ Names host (seen.map VerdictFields.citation) o.runId :=
        fun h => hfree (.inr h)
      refine ⟨⟨?_, hfree₀⟩, fun hmem => hfree₁ (hown hmem)⟩
      by_contra hnone
      exact hfree₁ (hspec hnone hfree₀ (hnamed.resolve_left hnone))
    · rintro ⟨hbears, hnew⟩
      exact ⟨.inl hbears.1, fun hany => hany.elim hbears.2 (hrun hbears hnew)⟩

lemma counted_iff_clear (hlower : LowersWords host) :
    ((∀ before, before <+: os →
        (countedOutcomes host texts before).length = (outcomes host texts before).length) ↔
      ∀ before o, before ++ [o] <+: os → Clear host texts (outcomes host texts before) o) ∧
    ((∀ before, before <+: os →
        (countedOutcomes host texts before).length = (outcomes host texts before).length) →
      countedOutcomes host texts os = outcomes host texts os) := by
  induction os using List.reverseRecOn with
  | nil =>
    refine ⟨iff_of_true (fun before h => ?_) fun before o h => ?_, fun _ => rfl⟩
    · rw [List.prefix_nil.mp h]
      rfl
    · exact absurd (List.prefix_nil.mp h) (by simp)
  | append_singleton os o ih =>
    -- the lists agree so far, so the lengths agree after the verdict when both or none grow
    have hstep (hsame : countedOutcomes host texts os = outcomes host texts os) :
        ((countedOutcomes host texts (os ++ [o])).length =
            (outcomes host texts (os ++ [o])).length ↔
          Clear host texts (outcomes host texts os) o) ∧
        ((countedOutcomes host texts (os ++ [o])).length =
            (outcomes host texts (os ++ [o])).length →
          countedOutcomes host texts (os ++ [o]) = outcomes host texts (os ++ [o])) := by
      rw [← bears_iff_clear hlower, countedOutcomes_concat, outcomes_concat, hsame]
      split_ifs with hcounted hdue hdue
      · exact ⟨iff_of_true rfl (iff_of_true hcounted hdue), fun _ => rfl⟩
      · refine ⟨iff_of_false (by simp) fun h => hdue (h.mp hcounted), fun h => ?_⟩
        simp at h
      · refine ⟨iff_of_false (by simp) fun h => hcounted (h.mpr hdue), fun h => ?_⟩
        simp at h
      · exact ⟨iff_of_true rfl (iff_of_false hcounted hdue), fun _ => rfl⟩
    constructor
    · constructor
      · intro hcounts before o' hbefore
        have hearlier : ∀ before, before <+: os → _ := fun before h =>
          hcounts before (h.trans (List.prefix_append os [o]))
        rcases List.prefix_concat_iff.mp hbefore with heq | hbefore
        · obtain ⟨rfl, hlast⟩ := List.append_inj' heq rfl
          cases hlast
          exact (hstep (ih.2 hearlier)).1.mp (hcounts _ (List.prefix_refl _))
        · exact ih.1.mp hearlier before o' hbefore
      · intro hclear before hbefore
        have hearlier := ih.1.mpr fun before o' h =>
          hclear before o' (h.trans (List.prefix_append os [o]))
        rcases List.prefix_concat_iff.mp hbefore with rfl | hbefore
        · exact (hstep (ih.2 hearlier)).1.mpr (hclear os o (List.prefix_refl _))
        · exact hearlier before hbefore
    · intro hcounts
      have hearlier : ∀ before, before <+: os → _ := fun before h =>
        hcounts before (h.trans (List.prefix_append os [o]))
      exact (hstep (ih.2 hearlier)).2 (hcounts _ (List.prefix_refl _))

end Outcomes

/-! ### One call -/

section Calls

variable (host : Host)

def citationTexts (v : Version) : List String :=
  (listValue host v.2 "evidence_citations").toOption.getD []

/-- The citations of a version are no text on their own, which would be searched letter by letter. -/
def Listed (v : Version) : Prop := ∀ s, Dict.get? "evidence_citations" v.2 ≠ some (.str s)

def totalOf (v : Option Version) : ℕ := countOf host .confirm v + countOf host .disconfirm v

def VerdictCall.outcome (call : VerdictCall) : Option VerdictFields :=
  (verdictFields host call.verdictPayload).toOption

variable {host} {repositoryId : String} {dir : ArtifactDir} {call : VerdictCall} {u : Update}
  {o : VerdictFields} {v : Version}

lemma any_namedIn_iff (hlisted : Listed v) {items : List Json} (h : citationsOf v.2 = .ok items)
    (name : String) : items.any (namedIn host name) = true ↔ Names host (citationTexts host v) name := by
  have hmap : ∀ l : List Json, l.any (namedIn host name) = true ↔
      Names host (l.map fun item => item.text host.toRuntime) name := by
    intro l
    simp only [List.any_eq_true, Names, List.mem_map, exists_exists_and_eq_and]
    rfl
  rw [citationsOf] at h
  rw [citationTexts, listValue]
  cases hget : Dict.get? "evidence_citations" v.2 with
  | none =>
    rw [hget] at h
    cases h
    exact hmap []
  | some value =>
    rw [hget] at h
    cases value with
    | null =>
      cases h
      exact hmap []
    | str s => exact absurd hget (hlisted s)
    | arr l =>
      have hitems : items = l := by
        cases l with
        | nil =>
          cases h
          rfl
        | cons item l =>
          cases h
          rfl
      rw [hitems]
      exact hmap l
    | obj fields =>
      have hitems : items = fields.map fun kv => .str kv.1 := by
        cases fields with
        | nil =>
          cases h
          rfl
        | cons kv fields =>
          cases h
          rfl
      rw [hitems]
      exact hmap _
    | bool b =>
      cases b with
      | false =>
        cases h
        exact hmap []
      | true => cases h
    | int n =>
      have hitems : items = [] := by
        by_cases hzero : n = 0
        · subst hzero
          cases h
          rfl
        · simp [Json.orElse, Json.truthy, hzero, Json.toList] at h
      rw [hitems]
      exact hmap []
    | float x =>
      have hitems : items = [] := by
        by_cases htruthy : (Json.float x).truthy = true
        · simp [Json.orElse, htruthy, Json.toList] at h
        · simp only [Json.orElse, htruthy, Json.toList] at h
          simpa using h.symm
      rw [hitems]
      exact hmap []

lemma consult_updated_iff (hlisted : Listed v) {c : Consultation}
    (h : consult host repositoryId call o v = .ok c) :
    (∃ u, c = .updated u) ↔ Bears host (citationTexts host v) o := by
  simp only [consult, citesWave, alreadyCounts, bind_eq_ok, pure, Except.pure, Except.ok.injEq] at h
  obtain ⟨cites, ⟨items, hitems, rfl⟩, h⟩ := h
  have hnamed : ∀ name, items.any (namedIn host name) = true ↔
      Names host (citationTexts host v) name := any_namedIn_iff hlisted hitems
  have hcites : items.any (fun c => namedIn host o.specName c || namedIn host o.runId c) = true ↔
      Names host (citationTexts host v) o.specName ∨ Names host (citationTexts host v) o.runId := by
    rw [← hnamed, ← hnamed]
    simp only [List.any_eq_true, Bool.or_eq_true, and_or_left, exists_or]
  rw [Bears]
  split_ifs at h with hany
  · simp only [bind_eq_ok, hitems, Except.ok.injEq] at h
    obtain ⟨counts, ⟨items', rfl, rfl⟩, h⟩ := h
    have hrun : items.any (fun c => namedIn host o.runId c) = true ↔
        Names host (citationTexts host v) o.runId := hnamed o.runId
    split_ifs at h with hcounts
    · cases h
      exact iff_of_false (by simp) fun hbears => hbears.2 (hrun.mp hcounts)
    · have hfree : ¬ Names host (citationTexts host v) o.runId := fun hrun' =>
        hcounts (hrun.mpr hrun')
      refine iff_of_true ?_ ⟨(hcites.mp hany).resolve_right hfree, hfree⟩
      split at h
      · cases h
      · simp only [bind_eq_ok, Except.ok.injEq] at h
        obtain ⟨version, -, rfl⟩ := h
        exact ⟨_, rfl⟩
  · cases h
    exact iff_of_false (by simp) fun hbears => hany (hcites.mpr (.inl hbears.1))

lemma mem_applied {result : BeliefUpdateResult} (hfields : call.outcome host = some o)
    (hresult : applyWaveVerdict host repositoryId call dir = .ok result) :
    (∀ v ∈ (beliefIndex host repositoryId dir).1, ∃ c, consult host repositoryId call o v = .ok c ∧
      ∀ u, c = .updated u → u ∈ applied host repositoryId dir call) ∧
    ∀ u ∈ applied host repositoryId dir call,
      consult host repositoryId call o u.current = .ok (.updated u) := by
  rw [applied, hresult]
  simp only [applyWaveVerdict, bind_eq_ok] at hresult
  obtain ⟨fields, hverdict, consultations, hconsultations, hresult⟩ := hresult
  have hsame : fields = o := by
    rw [VerdictCall.outcome, hverdict] at hfields
    exact Option.some.inj hfields
  subst hsame
  cases hresult
  obtain ⟨hversions, hconsulted⟩ := forall₂_mem (forall₂_of_mapM hconsultations)
  simp only [Except.toOption, Option.elim_some, updatesOf, List.mem_filterMap]
  constructor
  · intro v hv
    obtain ⟨c, hc, hconsult⟩ := hversions v hv
    refine ⟨c, hconsult, ?_⟩
    rintro u rfl
    exact ⟨_, hc, rfl⟩
  · rintro u ⟨c, hc, hu⟩
    obtain ⟨v, -, hconsult⟩ := hconsulted c hc
    cases c with
    | unrelated => cases hu
    | alreadyCounted => cases hu
    | updated u' =>
      cases hu
      rw [(consult_eq_updated hconsult).1]
      exact hconsult

lemma mem_index_of_current {belief : String} (h : current host repositoryId dir belief = some v) :
    v ∈ (beliefIndex host repositoryId dir).1 := by
  rw [beliefIndex]
  exact mem_sortBy.mpr (List.mem_map_of_mem (Dict.mem_of_get? h))

/-- What a version takes from its outcome. -/
structure Extends (host : Host) (v v' : Version) (o : VerdictFields) : Prop where
  listed : Listed v'
  texts : citationTexts host v' = citationTexts host v ++ [o.citation]
  total : totalOf host (some v') = totalOf host (some v) + 1

lemma extends_of_consult (hlower : LowersWords host)
    (hconsult : consult host repositoryId call o u.current = .ok (.updated u))
    (hbears : Bears host (citationTexts host u.current) o) : Extends host u.current u.version o := by
  have hderives := (consult_eq_updated hconsult).2
  obtain ⟨items, hitems, hcitations⟩ := hderives.citations
  have htexts : citationTexts host u.current = items := by
    rw [citationTexts, hitems]
    rfl
  have hget : Dict.get? "evidence_citations" u.version.2 =
      some (.arr (u.body.evidenceCitations.map .str)) := by
    rw [Update.version_snd]
    exact get?_sorted u.body _
  constructor
  · intro s hs
    rw [hget] at hs
    cases hs
  · have hnew : o.citation ≠ "" ∧ o.citation ∉ items := by
      constructor
      · intro hempty
        have hlength := congrArg String.length hempty
        simp [VerdictFields.citation, outcomeCitation] at hlength
      · intro hmem
        rw [htexts] at hbears
        exact hbears.2 ⟨o.citation, hmem, namedIn_citation hlower o⟩
    rw [htexts, citationTexts, listValue_strings hget, hcitations]
    exact if_pos hnew
  · rw [totalOf, totalOf, hderives.count, hderives.count]
    cases u.signal <;> simp <;> omega

/-- A call that returns and whose versions are kept: the version of a belief is extended by the
outcome if it is new, and stays otherwise. -/
lemma Kept.outcome (hlower : LowersWords host) (hkept : Kept host repositoryId dir call)
    {result : BeliefUpdateResult} (hfields : call.outcome host = some o)
    (hresult : applyWaveVerdict host repositoryId call dir = .ok result) {belief : String}
    (hcurrent : current host repositoryId dir belief = some v) (hlisted : Listed v) :
    ∃ v', current host repositoryId (land host repositoryId dir call) belief = some v' ∧
      if Bears host (citationTexts host v) o then Extends host v v' o else v' = v := by
  obtain ⟨hconsults, happlied⟩ := mem_applied hfields hresult
  obtain ⟨c, hconsult, hmem⟩ := hconsults v (mem_index_of_current hcurrent)
  have hlocator : locator host v = belief := (current_iff.mp hcurrent).1
  by_cases hbears : Bears host (citationTexts host v) o
  · obtain ⟨u, rfl⟩ := (consult_updated_iff hlisted hconsult).mpr hbears
    obtain ⟨rfl, -⟩ := consult_eq_updated hconsult
    refine ⟨u.version, ?_, ?_⟩
    · rw [← hlocator]
      exact hkept.updated u (hmem u rfl)
    · rw [if_pos hbears]
      exact extends_of_consult hlower hconsult hbears
  · refine ⟨v, ?_, by rw [if_neg hbears]⟩
    rw [hkept.others belief, hcurrent]
    intro u hu hsame
    have hcurrent' : some u.current = some v := by
      rw [← current_applied hu, hsame, hcurrent]
    cases hcurrent'
    exact hbears ((consult_updated_iff hlisted (happlied u hu)).mp ⟨u, rfl⟩)

/-- A payload that names its outcome is consulted without an exception. -/
def Returns (host : Host) (repositoryId : String) (dir : ArtifactDir) (call : VerdictCall) : Prop :=
  ∀ o, call.outcome host = some o →
    ∃ result, applyWaveVerdict host repositoryId call dir = .ok result

lemma land_no_outcome (h : call.outcome host = none) : land host repositoryId dir call = dir := by
  have hraises : ∃ e, applyWaveVerdict host repositoryId call dir = .error e := by
    cases hfields : verdictFields host call.verdictPayload with
    | error e => exact ⟨e, by simp [applyWaveVerdict, hfields, bind, Except.bind]⟩
    | ok o =>
      rw [VerdictCall.outcome, hfields] at h
      cases h
  obtain ⟨e, he⟩ := hraises
  rw [land, applied, he]
  rfl

/-! ### Runs -/

/-- What a version is when its belief had these texts and counted these outcomes since. -/
structure Counts (host : Host) (texts : List String) (start : ℕ) (seen : List VerdictFields)
    (v : Version) : Prop where
  listed : Listed v
  texts : citationTexts host v = texts ++ seen.map VerdictFields.citation
  total : totalOf host (some v) = start + seen.length

lemma counts_of_run (hlower : LowersWords host) {calls : List VerdictCall}
    (hreads : Along (land host repositoryId)
      (fun dir call => ∀ u ∈ applied host repositoryId dir call, ReadsBack host u) dir calls)
    (hahead : Along (land host repositoryId) (Ahead host repositoryId) dir calls)
    (hreturns : Along (land host repositoryId) (Returns host repositoryId) dir calls)
    {belief : String} {texts : List String} {start : ℕ} {seen : List VerdictFields}
    (hcurrent : current host repositoryId dir belief = some v)
    (hcounts : Counts host texts start seen v) :
    ∃ v', current host repositoryId (calls.foldl (land host repositoryId) dir) belief = some v' ∧
      Counts host texts start ((calls.filterMap (VerdictCall.outcome host)).foldl (fun seen o =>
        if Bears host (texts ++ seen.map VerdictFields.citation) o then seen ++ [o] else seen)
        seen) v' := by
  induction calls generalizing dir v seen with
  | nil => exact ⟨v, hcurrent, hcounts⟩
  | cons call calls ih =>
    rw [List.foldl_cons]
    cases houtcome : call.outcome host with
    | none =>
      rw [List.filterMap_cons_none houtcome]
      have hland : land host repositoryId dir call = dir := land_no_outcome houtcome
      refine ih hreads.2 hahead.2 hreturns.2 ?_ hcounts
      rw [hland]
      exact hcurrent
    | some o =>
      rw [List.filterMap_cons_some houtcome, List.foldl_cons]
      obtain ⟨result, hresult⟩ := hreturns.1 o houtcome
      obtain ⟨v', hcurrent', hnext⟩ :=
        (hahead.1.kept hreads.1).outcome hlower houtcome hresult hcurrent hcounts.listed
      refine ih hreads.2 hahead.2 hreturns.2 hcurrent' ?_
      rw [hcounts.texts] at hnext
      split_ifs at hnext ⊢ with hbears
      · refine ⟨hnext.listed, ?_, ?_⟩
        · rw [hnext.texts, hcounts.texts, List.map_append, List.append_assoc]
          rfl
        · rw [hnext.total, hcounts.total, List.length_append, add_assoc]
          rfl
      · rw [hnext]
        exact hcounts

end Calls

/-! ### One belief and a verdict that comes again -/

section Convergence

variable {endedAt : String} (hend : endedAt ∈ endTimes)

def convergenceOutcome : VerdictFields := ⟨"kb_layer", "run-1", "clean"⟩

/-- The runs of the verdicts whose wave the texts name, by the spec or by the run. -/
def citedRuns (host : Host) (texts : List String) (os : List VerdictFields) : List String :=
  ((os.filter fun o => Names host texts o.specName ∨ Names host texts o.runId).map
    VerdictFields.runId).dedup

lemma lowersWords_convergence : LowersWords (convergenceHost endedAt) := by
  intro a b
  have hblank : Char.toLower ' ' = ' ' := by decide
  simp [convergenceHost, ← String.toList_inj, hblank]

include hend

lemma current_seed : current (convergenceHost endedAt) "agentic-dynamics" seedDir
    (locator (convergenceHost endedAt) (seedId, sortFields seedBody.toDict)) =
      some (seedId, sortFields seedBody.toDict) := by
  refine current_of_mem_index ?_
  rw [index_of_scan (scan_seed hend)]
  exact List.mem_singleton_self _

lemma returns_convergence : Returns (convergenceHost endedAt) "agentic-dynamics" seedDir
    (convergenceCall endedAt) := by
  intro o ho
  have hindex := index_of_scan (scan_seed hend)
  have hconsult := consult_convergence hend
  simp only [applyWaveVerdict, fields_convergence, hindex, List.mapM_cons, List.mapM_nil, hconsult,
    bind, Except.bind, pure, Except.pure]
  exact ⟨_, rfl⟩

omit hend in
lemma citationTexts_body (host : Host) (id : String) (b : BeliefBody) :
    citationTexts host (id, sortFields b.toDict) = b.evidenceCitations := by
  rw [citationTexts, listValue_strings (get?_sorted b "evidence_citations")]
  rfl

omit hend in
lemma listed_body (id : String) (b : BeliefBody) : Listed (id, sortFields b.toDict) := by
  intro s hs
  have hget : Dict.get? "evidence_citations" (sortFields b.toDict) =
      some (.arr (b.evidenceCitations.map .str)) := get?_sorted b _
  rw [hget] at hs
  cases hs

lemma mem_applied_convergence : convergenceUpdate endedAt ∈
    applied (convergenceHost endedAt) "agentic-dynamics" seedDir (convergenceCall endedAt) := by
  rw [applied_convergence hend]
  exact List.mem_singleton_self _

lemma applied_again (hlater : "2026-09-01T10:00:00Z" < endedAt) (call : VerdictCall)
    (hcall : call.outcome (convergenceHost endedAt) = some convergenceOutcome) :
    applied (convergenceHost endedAt) "agentic-dynamics"
      (land (convergenceHost endedAt) "agentic-dynamics" seedDir (convergenceCall endedAt)) call =
        [] := by
  have hkept : Kept (convergenceHost endedAt) "agentic-dynamics" seedDir (convergenceCall endedAt) :=
    (ahead_convergence hend hlater).kept (reads_convergence hend)
  have hmem := mem_applied_convergence hend
  refine List.eq_nil_iff_forall_not_mem.mpr fun u hu => ?_
  have hindex := current_applied hu
  -- both versions in the directory are of the one belief
  have hlocator : locator (convergenceHost endedAt) u.current =
      locator (convergenceHost endedAt) (seedId, sortFields seedBody.toDict) := by
    have hscan := (current_iff.mp hindex).2.1
    rcases (mem_scan_land (reads_convergence hend) hkept.ids).mp hscan with ⟨u', hu', hsame⟩ | hold
    · rw [applied_convergence hend, List.mem_singleton] at hu'
      rw [hsame, hu', (current_iff.mp (hkept.updated _ hmem)).1]
      rfl
    · rw [scan_seed hend, List.mem_singleton] at hold
      rw [hold.1]
  have hversion : u.current = (convergenceUpdate endedAt).version := by
    have hupdated := hkept.updated _ hmem
    rw [hlocator] at hindex
    exact Option.some.inj (hindex.symm.trans hupdated)
  obtain ⟨result, hresult⟩ : ∃ result, applyWaveVerdict (convergenceHost endedAt)
      "agentic-dynamics" call (land (convergenceHost endedAt) "agentic-dynamics" seedDir
        (convergenceCall endedAt)) = .ok result := by
    rw [applied] at hu
    cases hresult : applyWaveVerdict (convergenceHost endedAt) "agentic-dynamics" call
        (land (convergenceHost endedAt) "agentic-dynamics" seedDir (convergenceCall endedAt)) with
    | error e =>
      rw [hresult] at hu
      cases hu
    | ok result => exact ⟨result, rfl⟩
  have hlisted : Listed u.current := by
    rw [hversion]
    exact listed_body _ _
  have hconsult := (mem_applied hcall hresult).2 u hu
  have hbears := (consult_updated_iff hlisted hconsult).mp ⟨u, rfl⟩
  refine hbears.2 ⟨convergenceOutcome.citation, ?_, namedIn_citation lowersWords_convergence _⟩
  have htexts : citationTexts (convergenceHost endedAt) (convergenceUpdate endedAt).version =
      (confirmedBody endedAt).evidenceCitations := citationTexts_body _ _ _
  have hcitation : convergenceOutcome.citation = "kb_layer wave verdict run-1" := by decide
  rw [hversion, htexts, hcitation]
  exact List.mem_cons_of_mem _ (List.mem_singleton_self _)

lemma current_again (hlater : "2026-09-01T10:00:00Z" < endedAt) :
    current (convergenceHost endedAt) "agentic-dynamics"
      (land (convergenceHost endedAt) "agentic-dynamics" seedDir (convergenceCall endedAt))
      (locator (convergenceHost endedAt) (seedId, sortFields seedBody.toDict)) =
        some (convergenceUpdate endedAt).version := by
  have hkept := (ahead_convergence hend hlater).kept (reads_convergence hend)
  have hmem := mem_applied_convergence hend
  have hseed : (convergenceUpdate endedAt).current = (seedId, sortFields seedBody.toDict) := rfl
  have hupdated := hkept.updated _ hmem
  rw [hseed] at hupdated
  exact hupdated

omit hend in
lemma outcome_convergence (endedAt endedAt' : String) :
    (convergenceCall endedAt').outcome (convergenceHost endedAt) = some convergenceOutcome := by
  have hfields : verdictFields (convergenceHost endedAt) (convergenceCall endedAt').verdictPayload =
      .ok convergenceOutcome := fields_convergence
  rw [VerdictCall.outcome, hfields]
  rfl

end Convergence

end AgenticDynamics.Knowledge.Beliefs
