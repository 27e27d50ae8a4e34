import AgenticDynamics.Context.Verdicts

/-!
# What a context tells of its requirements

A context has the outcomes of the requirements in lists, without their requirements. They can be
told apart all the same: two resolutions of one contract that leave the same lists agree on every
requirement.
-/

namespace AgenticDynamics.Context

open Python

/-! ### The four outcomes -/

section Finish

variable {req : FactRequirement} {v : Verdict}

lemma finish_sound {a : Authority} {ref : Except ContextError FactRef} {o : Resolution} :
    (Verdict.sound a ref).finish req = .ok o ↔
      a < req.floor ∧ unknownFor req "below_min_authority" = o ∨
        ¬ a < req.floor ∧ ∃ r, ref = .ok r ∧ admitRef req r = o := by
  by_cases hlow : a < req.floor <;> cases ref <;> simp [Verdict.finish, Except.map, hlow]

lemma finish_unknown {u : Unknown} : v.finish req = .ok (.unknown u) ↔
    ∃ reason, u = ⟨req.fact, req.scope, reason, req.onMissing⟩ ∧ (v = .missing reason ∨
      reason = "below_min_authority" ∧ ∃ a ref, v = .sound a ref ∧ a < req.floor) := by
  cases v with
  | missing reason => simp [Verdict.finish, unknownFor, eq_comm]
  | conflicted candidates => simp [Verdict.finish]
  | stale ref => simp [Verdict.finish]
  | sound a ref => grind [finish_sound, unknownFor, admitRef]

lemma finish_conflict {c : Conflict} : v.finish req = .ok (.conflict c) ↔
    ∃ candidates, c = ⟨req.fact, req.scope, candidates, req.onConflict⟩ ∧
      v = .conflicted candidates := by
  cases v with
  | missing reason => simp [Verdict.finish, unknownFor]
  | conflicted candidates => simp [Verdict.finish, eq_comm]
  | stale ref => simp [Verdict.finish]
  | sound a ref => grind [finish_sound, unknownFor, admitRef]

lemma finish_stale {s : StaleFact} : v.finish req = .ok (.stale s) ↔
    ∃ ref reason, s = ⟨ref, req.scope, reason, req.onMissing⟩ ∧
      (reason = "cascade" ∧ v = .stale ref ∨ reason = "max_age_exceeded" ∧
        ∃ a, v = .sound a (.ok ref) ∧ ¬ a < req.floor ∧ tooOld req ref) := by
  cases v with
  | missing reason => simp [Verdict.finish, unknownFor]
  | conflicted candidates => simp [Verdict.finish]
  | stale ref => grind [Verdict.finish]
  | sound a ref => grind [finish_sound, unknownFor, admitRef]

lemma finish_ref {ref : FactRef} : v.finish req = .ok (.factRef ref) ↔
    ∃ a, v = .sound a (.ok ref) ∧ ¬ a < req.floor ∧ ¬ tooOld req ref := by
  cases v with
  | missing reason => simp [Verdict.finish, unknownFor]
  | conflicted candidates => simp [Verdict.finish]
  | stale ref => simp [Verdict.finish]
  | sound a ref' => grind [finish_sound, unknownFor, admitRef]

end Finish

/-! ### Lists of outcomes -/

lemma eq_of_filterMap_eq {α β : Type} {f g : α → Option β} {l : List α}
    (hsame : ∀ a ∈ l, (f a).isSome = (g a).isSome) (h : l.filterMap f = l.filterMap g) :
    ∀ a ∈ l, f a = g a := by
  induction l with
  | nil => simp
  | cons a l ih =>
    have ha := hsame a (by simp)
    have hl : ∀ b ∈ l, (f b).isSome = (g b).isSome := fun b hb => hsame b (by simp [hb])
    cases hf : f a with
    | none =>
      have hg : g a = none := by simpa [hf] using ha
      rw [List.filterMap_cons_none hf, List.filterMap_cons_none hg] at h
      simpa [hf, hg] using ih hl h
    | some b =>
      obtain ⟨b', hg⟩ := Option.isSome_iff_exists.mp (by simpa [hf] using ha.symm)
      rw [List.filterMap_cons_some hf, List.filterMap_cons_some hg, List.cons.injEq] at h
      simpa [hf, hg, h.1] using ih hl h.2

lemma of_countP_eq {α : Type} {p q : α → Bool} {l : List α} (hnarrow : ∀ a ∈ l, q a → p a)
    (h : l.countP p = l.countP q) : ∀ a ∈ l, p a → q a := by
  induction l with
  | nil => simp
  | cons a l ih =>
    have hl : ∀ b ∈ l, q b → p b := fun b hb => hnarrow b (by simp [hb])
    have hle := List.countP_mono_left hl
    have ha := hnarrow a (by simp)
    rw [List.countP_cons, List.countP_cons] at h
    intro b hb hp
    rcases List.mem_cons.mp hb with rfl | hb
    · by_contra hq
      simp only [hp, hq, if_true] at h
      simp at h
      omega
    · refine ih hl (le_antisymm ?_ hle) b hb hp
      by_cases hpa : p a
      · by_cases hqa : q a
        · simp only [hpa, hqa, if_true] at h
          omega
        · simp only [hpa, hqa, if_true] at h
          simp at h
          omega
      · by_cases hqa : q a
        · exact absurd (ha hqa) hpa
        · simp only [hpa, hqa] at h
          omega

/-- How a run reads its verdicts: one for all requirements of a fact in a scope. -/
structure Reads (reqs : List FactRequirement) (v : FactRequirement → Verdict)
    (o : FactRequirement → Resolution) : Prop where
  finish : ∀ r ∈ reqs, (v r).finish r = .ok (o r)
  shared : ∀ r r', r'.fact = r.fact → r'.scope = r.scope → v r' = v r
  reason : ∀ r reason, v r = .missing reason → reason ≠ "below_min_authority"
  predicate : ∀ r ∈ reqs, ∀ s, o r = .stale s → s.fact.predicate = r.fact

section Two

variable {reqs : List FactRequirement} {v₁ v₂ : FactRequirement → Verdict}
  {o₁ o₂ : FactRequirement → Resolution} {r : FactRequirement}

/-- The outcomes of a kind, in the order of the requirements. -/
def outcomes {α : Type} (kind : Resolved → Option α) (reqs : List FactRequirement)
    (o : FactRequirement → Resolution) : List α :=
  reqs.filterMap fun r => kind (r, o r)

lemma mem_outcomes {α : Type} {kind : Resolved → Option α} {x : α} :
    x ∈ outcomes kind reqs o₁ ↔ ∃ r ∈ reqs, kind (r, o₁ r) = some x := by
  simp [outcomes]

@[simp] lemma unknown?_eq_some {x : Resolution} {u : Unknown} :
    Resolved.unknown? (r, x) = some u ↔ x = .unknown u := by
  cases x <;> simp [Resolved.unknown?]

@[simp] lemma conflict?_eq_some {x : Resolution} {c : Conflict} :
    Resolved.conflict? (r, x) = some c ↔ x = .conflict c := by
  cases x <;> simp [Resolved.conflict?]

@[simp] lemma stale?_eq_some {x : Resolution} {s : StaleFact} :
    Resolved.stale? (r, x) = some s ↔ x = .stale s := by
  cases x <;> simp [Resolved.stale?]

@[simp] lemma ref?_eq_some {x : Resolution} {ref : FactRef} :
    Resolved.ref? (r, x) = some ref ↔ x = .factRef ref := by
  cases x <;> simp [Resolved.ref?]

lemma count_unknown (h : outcomes Resolved.unknown? reqs o₁ = outcomes Resolved.unknown? reqs o₂)
    (fact scope : String) :
    reqs.countP (fun r => ((Resolved.unknown? (r, o₁ r)).map fun u =>
      decide (u.predicate = fact ∧ u.scope = scope)).getD false) =
    reqs.countP fun r => ((Resolved.unknown? (r, o₂ r)).map fun u =>
      decide (u.predicate = fact ∧ u.scope = scope)).getD false := by
  rw [← List.countP_filterMap, ← List.countP_filterMap]
  exact congrArg _ h

lemma Reads.unknown (h₁ : Reads reqs v₁ o₁) (h₂ : Reads reqs v₂ o₂)
    (hlists : outcomes Resolved.unknown? reqs o₁ = outcomes Resolved.unknown? reqs o₂)
    (hr : r ∈ reqs) {u : Unknown} (hu : o₁ r = .unknown u) : ∃ u', o₂ r = .unknown u' := by
  have hfinish := h₁.finish r hr
  rw [hu] at hfinish
  obtain ⟨reason, rfl, hv⟩ := finish_unknown.mp hfinish
  -- the other run has the same entry, for a requirement of the same fact and scope
  have hmem := hlists ▸ mem_outcomes.mpr ⟨r, hr, unknown?_eq_some.mpr hu⟩
  obtain ⟨r', hr', hu'⟩ := mem_outcomes.mp hmem
  have hfinish' := h₂.finish r' hr'
  rw [unknown?_eq_some.mp hu'] at hfinish'
  obtain ⟨reason', heq, hv'⟩ := finish_unknown.mp hfinish'
  simp only [Unknown.mk.injEq] at heq
  obtain ⟨hfact, hscope, rfl, -⟩ := heq
  rw [h₂.shared r r' hfact.symm hscope.symm] at hv'
  have hdone := h₂.finish r hr
  rcases hv with hv | ⟨rfl, a₁, ref₁, hv, hlow⟩
  · rcases hv' with hv' | ⟨hreason, -⟩
    · rw [hv'] at hdone
      exact ⟨_, (Except.ok.inj hdone).symm⟩
    · exact absurd hreason (h₁.reason r reason hv)
  · rcases hv' with hv' | ⟨-, a₂, ref₂, hv', -⟩
    · exact absurd rfl (h₂.reason r _ hv')
    · by_contra hknown
      have hhigh : ¬ a₂ < r.floor := by
        intro hlow'
        rw [hv', Verdict.finish, if_pos hlow'] at hdone
        exact hknown ⟨_, (Except.ok.inj hdone).symm⟩
      -- so the floors that the second fact misses are among those that the first one misses
      have hnarrow : ∀ r' ∈ reqs, ((Resolved.unknown? (r', o₂ r')).map fun u =>
          decide (u.predicate = r.fact ∧ u.scope = r.scope)).getD false →
          ((Resolved.unknown? (r', o₁ r')).map fun u =>
            decide (u.predicate = r.fact ∧ u.scope = r.scope)).getD false := by
        intro r' hr' hunknown
        cases ho : o₂ r' with
        | unknown u' =>
          simp only [ho, Resolved.unknown?, Option.map_some, Option.getD_some,
            decide_eq_true_eq] at hunknown
          have hfinish'' := h₂.finish r' hr'
          rw [ho] at hfinish''
          obtain ⟨reason, rfl, hv''⟩ := finish_unknown.mp hfinish''
          have hfact' : r'.fact = r.fact := hunknown.1
          have hscope' : r'.scope = r.scope := hunknown.2
          rw [h₂.shared r r' hfact' hscope', hv'] at hv''
          obtain ⟨-, a, ref, heq, hlow'⟩ := hv''.resolve_left (by simp)
          cases heq
          have hfirst := h₁.finish r' hr'
          have hlow₁ : a₁ < r'.floor := lt_of_lt_of_le (hlow.trans_le (not_lt.mp hhigh)) hlow'.le
          rw [h₁.shared r r' hfact' hscope', hv, Verdict.finish, if_pos hlow₁] at hfirst
          rw [← Except.ok.inj hfirst]
          simp [Resolved.unknown?, unknownFor, hfact', hscope']
        | _ => simp [ho, Resolved.unknown?] at hunknown
      have hcount := of_countP_eq hnarrow (count_unknown hlists r.fact r.scope) r hr
      rw [hu] at hcount
      have hsecond := hcount (by simp [Resolved.unknown?])
      cases ho : o₂ r with
      | unknown u' => exact hknown ⟨u', ho⟩
      | _ => simp [ho, Resolved.unknown?] at hsecond

lemma Reads.conflict (h₁ : Reads reqs v₁ o₁) (h₂ : Reads reqs v₂ o₂)
    (hlists : outcomes Resolved.conflict? reqs o₁ = outcomes Resolved.conflict? reqs o₂)
    (hr : r ∈ reqs) {c : Conflict} (hc : o₁ r = .conflict c) : ∃ c', o₂ r = .conflict c' := by
  have hfinish := h₁.finish r hr
  rw [hc] at hfinish
  obtain ⟨candidates, rfl, -⟩ := finish_conflict.mp hfinish
  have hmem := hlists ▸ mem_outcomes.mpr ⟨r, hr, conflict?_eq_some.mpr hc⟩
  obtain ⟨r', hr', hc'⟩ := mem_outcomes.mp hmem
  have hfinish' := h₂.finish r' hr'
  rw [conflict?_eq_some.mp hc'] at hfinish'
  obtain ⟨candidates', heq, hv'⟩ := finish_conflict.mp hfinish'
  simp only [Conflict.mk.injEq] at heq
  rw [h₂.shared r r' heq.1.symm heq.2.1.symm] at hv'
  have hdone := h₂.finish r hr
  rw [hv'] at hdone
  exact ⟨_, (Except.ok.inj hdone).symm⟩

lemma Reads.stale (h₁ : Reads reqs v₁ o₁) (h₂ : Reads reqs v₂ o₂)
    (hunknowns : outcomes Resolved.unknown? reqs o₁ = outcomes Resolved.unknown? reqs o₂)
    (hlists : outcomes Resolved.stale? reqs o₁ = outcomes Resolved.stale? reqs o₂)
    (hr : r ∈ reqs) {s : StaleFact} (hs : o₁ r = .stale s) : ∃ s', o₂ r = .stale s' := by
  have hfinish := h₁.finish r hr
  rw [hs] at hfinish
  obtain ⟨ref, reason, rfl, hv⟩ := finish_stale.mp hfinish
  have hmem := hlists ▸ mem_outcomes.mpr ⟨r, hr, stale?_eq_some.mpr hs⟩
  obtain ⟨r', hr', hs'⟩ := mem_outcomes.mp hmem
  have hs' := stale?_eq_some.mp hs'
  have hfact : r'.fact = r.fact :=
    (h₂.predicate r' hr' _ hs').symm.trans (h₁.predicate r hr _ hs)
  have hfinish' := h₂.finish r' hr'
  rw [hs'] at hfinish'
  obtain ⟨ref', reason', heq, hv'⟩ := finish_stale.mp hfinish'
  simp only [StaleFact.mk.injEq] at heq
  obtain ⟨rfl, hscope, rfl, -⟩ := heq
  rw [h₂.shared r r' hfact hscope.symm] at hv'
  have hdone := h₂.finish r hr
  rcases hv with ⟨rfl, -⟩ | ⟨rfl, a₁, hv, hhigh, hold⟩
  · rcases hv' with ⟨-, hv'⟩ | ⟨hreason, -⟩
    · rw [hv'] at hdone
      exact ⟨_, (Except.ok.inj hdone).symm⟩
    · simp at hreason
  · rcases hv' with ⟨hreason, -⟩ | ⟨-, a₂, hv', -, -⟩
    · simp at hreason
    · -- the reference is the same one, so only the floor could make a difference
      by_cases hlow : a₂ < r.floor
      · rw [hv', Verdict.finish, if_pos hlow] at hdone
        obtain ⟨u, hu⟩ := h₂.unknown h₁ hunknowns.symm hr (Except.ok.inj hdone).symm
        rw [hs] at hu
        simp at hu
      · rw [hv', Verdict.finish, if_neg hlow] at hdone
        simp only [Except.map, admitRef, hold, if_true, Except.ok.injEq] at hdone
        exact ⟨_, hdone.symm⟩

lemma Reads.factRef (h₁ : Reads reqs v₁ o₁) (h₂ : Reads reqs v₂ o₂)
    (hunknowns : outcomes Resolved.unknown? reqs o₁ = outcomes Resolved.unknown? reqs o₂)
    (hconflicts : outcomes Resolved.conflict? reqs o₁ = outcomes Resolved.conflict? reqs o₂)
    (hstale : outcomes Resolved.stale? reqs o₁ = outcomes Resolved.stale? reqs o₂)
    (hr : r ∈ reqs) {ref : FactRef} (href : o₁ r = .factRef ref) : ∃ ref', o₂ r = .factRef ref' := by
  cases ho : o₂ r with
  | factRef ref' => exact ⟨ref', rfl⟩
  | unknown u =>
    obtain ⟨u', hu'⟩ := h₂.unknown h₁ hunknowns.symm hr ho
    simp [href] at hu'
  | conflict c =>
    obtain ⟨c', hc'⟩ := h₂.conflict h₁ hconflicts.symm hr ho
    simp [href] at hc'
  | stale s =>
    obtain ⟨s', hs'⟩ := h₂.stale h₁ hunknowns.symm hstale.symm hr ho
    simp [href] at hs'

/-- Two runs that leave the same lists agree on every requirement. The references may stand in
several lists, each of a part of the requirements. -/
lemma Reads.eq (h₁ : Reads reqs v₁ o₁) (h₂ : Reads reqs v₂ o₂)
    (hunknowns : outcomes Resolved.unknown? reqs o₁ = outcomes Resolved.unknown? reqs o₂)
    (hconflicts : outcomes Resolved.conflict? reqs o₁ = outcomes Resolved.conflict? reqs o₂)
    (hstale : outcomes Resolved.stale? reqs o₁ = outcomes Resolved.stale? reqs o₂)
    (hrefs : ∀ r ∈ reqs, ∃ part : List FactRequirement, r ∈ part ∧ part ⊆ reqs ∧
      outcomes Resolved.ref? part o₁ = outcomes Resolved.ref? part o₂) :
    ∀ r ∈ reqs, o₁ r = o₂ r := by
  intro r hr
  have hkind : ∀ {α : Type} {kind : Resolved → Option α},
      (∀ r ∈ reqs, (kind (r, o₁ r)).isSome → (kind (r, o₂ r)).isSome) →
      (∀ r ∈ reqs, (kind (r, o₂ r)).isSome → (kind (r, o₁ r)).isSome) →
      ∀ r ∈ reqs, (kind (r, o₁ r)).isSome = (kind (r, o₂ r)).isSome := by
    intro α kind hto hfrom r hr
    exact Bool.eq_iff_iff.mpr ⟨hto r hr, hfrom r hr⟩
  cases ho : o₁ r with
  | unknown u =>
    have hsame := eq_of_filterMap_eq (hkind
      (fun r hr h => by
        obtain ⟨u, hu⟩ := Option.isSome_iff_exists.mp h
        obtain ⟨u', hu'⟩ := h₁.unknown h₂ hunknowns hr (unknown?_eq_some.mp hu)
        simp [hu', Resolved.unknown?])
      (fun r hr h => by
        obtain ⟨u, hu⟩ := Option.isSome_iff_exists.mp h
        obtain ⟨u', hu'⟩ := h₂.unknown h₁ hunknowns.symm hr (unknown?_eq_some.mp hu)
        simp [hu', Resolved.unknown?])) hunknowns r hr
    rw [unknown?_eq_some.mpr ho] at hsame
    exact (unknown?_eq_some.mp hsame.symm).symm
  | conflict c =>
    have hsame := eq_of_filterMap_eq (hkind
      (fun r hr h => by
        obtain ⟨c, hc⟩ := Option.isSome_iff_exists.mp h
        obtain ⟨c', hc'⟩ := h₁.conflict h₂ hconflicts hr (conflict?_eq_some.mp hc)
        simp [hc', Resolved.conflict?])
      (fun r hr h => by
        obtain ⟨c, hc⟩ := Option.isSome_iff_exists.mp h
        obtain ⟨c', hc'⟩ := h₂.conflict h₁ hconflicts.symm hr (conflict?_eq_some.mp hc)
        simp [hc', Resolved.conflict?])) hconflicts r hr
    rw [conflict?_eq_some.mpr ho] at hsame
    exact (conflict?_eq_some.mp hsame.symm).symm
  | stale s =>
    have hsame := eq_of_filterMap_eq (hkind
      (fun r hr h => by
        obtain ⟨s, hs⟩ := Option.isSome_iff_exists.mp h
        obtain ⟨s', hs'⟩ := h₁.stale h₂ hunknowns hstale hr (stale?_eq_some.mp hs)
        simp [hs', Resolved.stale?])
      (fun r hr h => by
        obtain ⟨s, hs⟩ := Option.isSome_iff_exists.mp h
        obtain ⟨s', hs'⟩ := h₂.stale h₁ hunknowns.symm hstale.symm hr (stale?_eq_some.mp hs)
        simp [hs', Resolved.stale?])) hstale r hr
    rw [stale?_eq_some.mpr ho] at hsame
    exact (stale?_eq_some.mp hsame.symm).symm
  | factRef ref =>
    obtain ⟨part, hpart, hsub, hlist⟩ := hrefs r hr
    have hsame := eq_of_filterMap_eq (fun r hr => hkind
      (fun r hr h => by
        obtain ⟨ref, href⟩ := Option.isSome_iff_exists.mp h
        obtain ⟨ref', href'⟩ := h₁.factRef h₂ hunknowns hconflicts hstale hr (ref?_eq_some.mp href)
        simp [href', Resolved.ref?])
      (fun r hr h => by
        obtain ⟨ref, href⟩ := Option.isSome_iff_exists.mp h
        obtain ⟨ref', href'⟩ := h₂.factRef h₁ hunknowns.symm hconflicts.symm hstale.symm hr
          (ref?_eq_some.mp href)
        simp [href', Resolved.ref?]) r (hsub hr)) hlist r hpart
    rw [ref?_eq_some.mpr ho] at hsame
    exact (ref?_eq_some.mp hsame.symm).symm

end Two

end AgenticDynamics.Context
