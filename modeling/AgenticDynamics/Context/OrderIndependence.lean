import AgenticDynamics.Context.Compiled

/-!
# The order of the store

A store returns its facts in some order. The compiler sorts what competes for a slot, but among
descendants observed at the same time it takes the first it finds, and facts of one id stay in the
order they came in.
-/

namespace AgenticDynamics.Context

open Python

/-- The same facts and the same rows, returned in another order. -/
structure Reordered (s t : FactStore) : Prop where
  currentFacts : ∀ predicate, (s.currentFacts predicate).Perm (t.currentFacts predicate)
  resolve : t.resolve = s.resolve
  currentVersions : ∀ id, Option.Rel List.Perm (s.currentVersions id) (t.currentVersions id)

/-- The same context, the advisory facts listed in any order. -/
structure SameContext (a b : ControlContext) : Prop extends SameCanonical a b where
  admissible : a.admissible = b.admissible
  snapshotId : a.snapshotId = b.snapshotId
  advisory : a.advisory.Perm b.advisory

section Slots

variable (decisionScopePath : String) (store : FactStore) (req : FactRequirement)

/-- A list of facts that may fill the slot of a requirement: one of the descendants observed last,
or the facts of the smallest entity in an order of their ids. -/
def Filling (target : String) (group : List CanonicalFact) : Prop :=
  if visibleFacts store req target = [] ∧ req.scope = "self" then
    ∃ d ∈ descendants decisionScopePath store req, group = [d] ∧
      ∀ other ∈ descendants decisionScopePath store req, other.observedAt ≤ d.observedAt
  else
    group.Perm (slotGroup (visibleFacts store req target)) ∧
      group.Pairwise fun f g => f.factId ≤ g.factId

/-- However ties are broken, the requirement makes the same of its slot. -/
def TiesAlike (host : Host) (now : String) : Prop :=
  ∀ target, resolveRequirementScope req.scope decisionScopePath = .ok (some target) →
    ∀ fact others fact' others',
      Filling decisionScopePath store req target (fact :: others) →
      Filling decisionScopePath store req target (fact' :: others') →
      judge host now store req fact (fact :: others) =
        judge host now store req fact' (fact' :: others')

end Slots

section Order

variable {host : Host} {now decisionScopePath target : String} {s t : FactStore}
  {req : FactRequirement}

/-! ### Slots of a reordered store -/

namespace Reordered

lemma symm (h : Reordered s t) : Reordered t s := by
  refine ⟨fun predicate => (h.currentFacts predicate).symm, h.resolve.symm, fun id => ?_⟩
  have hrel := h.currentVersions id
  generalize s.currentVersions id = rows at hrel
  generalize t.currentVersions id = rows' at hrel
  cases hrel with
  | some hperm => exact .some hperm.symm
  | none => exact .none

lemma lawful (h : Reordered s t) (hlawful : s.Lawful) : t.Lawful :=
  fun predicate f hf => hlawful predicate f ((h.currentFacts predicate).symm.subset hf)

lemma visibleFacts (h : Reordered s t) :
    (visibleFacts s req target).Perm (visibleFacts t req target) :=
  (h.currentFacts req.fact).filter _

lemma descendants (h : Reordered s t) :
    (descendants decisionScopePath s req).Perm (descendants decisionScopePath t req) :=
  (h.currentFacts req.fact).filter _

lemma rivalled (h : Reordered s t) (fact : CanonicalFact) : rivalled t fact = rivalled s fact := by
  have hrows : (((s.currentVersions fact.factEntityId).getD []).filter fun row =>
      row.lifecycleState = none ∨ row.lifecycleState = some "current").Perm
      (((t.currentVersions fact.factEntityId).getD []).filter fun row =>
        row.lifecycleState = none ∨ row.lifecycleState = some "current") := by
    apply List.Perm.filter
    have hrel := h.currentVersions fact.factEntityId
    generalize s.currentVersions fact.factEntityId = rows at hrel
    generalize t.currentVersions fact.factEntityId = rows' at hrel
    cases hrel with
    | some hperm => exact hperm
    | none => exact .refl _
  simp only [Context.rivalled, ((hrows.map Row.id).dedup).length_eq]

lemma factState (h : Reordered s t) (fact : CanonicalFact) :
    factState now t fact = factState now s fact := by
  have hown : ∀ state, ownRow t fact state = ownRow s fact state := by
    intro state
    simp only [ownRow, h.resolve]
  have hcascades : cascades t fact = cascades s fact := by simp only [cascades, h.resolve]
  simp only [Context.factState, h.rivalled fact, hown, hcascades]

lemma judge (h : Reordered s t) (fact : CanonicalFact) (group : List CanonicalFact) :
    judge host now t req fact group = judge host now s req fact group := by
  simp only [Context.judge, h.factState fact, h.resolve]

end Reordered

/-! ### Fillings -/

lemma slotGroup_eq {candidates : List CanonicalFact} {entity : String}
    (h : (candidates.map CanonicalFact.factEntityId).min? = some entity) :
    slotGroup candidates = (candidates.filter fun f => f.factEntityId = entity).insertionSort
      fun f g => f.factId ≤ g.factId := by
  simp only [slotGroup, h]

lemma slotGroup_eq_nil {candidates : List CanonicalFact} :
    slotGroup candidates = [] ↔ candidates = [] := by
  constructor
  · intro h
    cases hmin : (candidates.map CanonicalFact.factEntityId).min? with
    | none => simpa using hmin
    | some entity =>
      obtain ⟨f, hf, hentity⟩ := List.mem_map.mp (List.min?_mem hmin)
      rw [slotGroup_eq hmin] at h
      have hmem : f ∈ candidates.filter fun f => f.factEntityId = entity := by
        simp [hf, hentity]
      have hempty := (List.perm_insertionSort (fun f g : CanonicalFact => f.factId ≤ g.factId)
        (candidates.filter fun f => f.factEntityId = entity)).symm.subset hmem
      simp [h] at hempty
  · rintro rfl
    rfl

lemma slotGroup_sorted (candidates : List CanonicalFact) :
    (slotGroup candidates).Pairwise fun f g => f.factId ≤ g.factId := by
  unfold slotGroup
  split
  · exact .nil
  · have : Std.Total fun f g : CanonicalFact => f.factId ≤ g.factId :=
      ⟨fun f g => le_total f.factId g.factId⟩
    have : IsTrans CanonicalFact fun f g => f.factId ≤ g.factId :=
      ⟨fun _ _ _ hfg hgh => le_trans hfg hgh⟩
    exact List.pairwise_insertionSort _ _

lemma min?_perm {names names' : List String} (h : names.Perm names') : names'.min? = names.min? := by
  cases hmin : names.min? with
  | none =>
    rw [List.min?_eq_none_iff] at hmin
    subst hmin
    simp [h.nil_eq.symm]
  | some least =>
    rw [List.min?_eq_some_iff] at hmin ⊢
    exact ⟨h.subset hmin.1, fun other hother => hmin.2 other (h.symm.subset hother)⟩

lemma slotGroup_perm {candidates candidates' : List CanonicalFact}
    (h : candidates.Perm candidates') : (slotGroup candidates).Perm (slotGroup candidates') := by
  unfold slotGroup
  rw [min?_perm (h.map CanonicalFact.factEntityId)]
  split
  · exact .refl _
  · exact (List.perm_insertionSort _ _).trans
      ((h.filter _).trans (List.perm_insertionSort _ _).symm)

lemma slotGroup_singleton (f : CanonicalFact) : slotGroup [f] = [f] := by
  simp [slotGroup]

lemma Reordered.filling (h : Reordered s t)
    (hne : slotGroup (candidates decisionScopePath t req target) ≠ []) :
    Filling decisionScopePath s req target
      (slotGroup (candidates decisionScopePath t req target)) := by
  have hvisible : (Context.visibleFacts s req target).Perm (Context.visibleFacts t req target) :=
    h.visibleFacts
  have hempty : Context.visibleFacts t req target = [] ↔
      Context.visibleFacts s req target = [] :=
    ⟨fun heq => (heq ▸ hvisible).eq_nil, fun heq => (heq ▸ hvisible).nil_eq.symm⟩
  unfold Filling
  by_cases hcase : Context.visibleFacts s req target = [] ∧ req.scope = "self"
  · rw [if_pos hcase]
    have hcandidates : candidates decisionScopePath t req target =
        ((Context.descendants decisionScopePath t req).argmax CanonicalFact.observedAt).toList := by
      unfold candidates
      rw [if_pos ⟨hempty.mpr hcase.1, hcase.2⟩]
    have hperm : (Context.descendants decisionScopePath s req).Perm
        (Context.descendants decisionScopePath t req) := h.descendants
    cases hmax : (Context.descendants decisionScopePath t req).argmax
        CanonicalFact.observedAt with
    | none =>
      rw [hcandidates, hmax] at hne
      exact absurd rfl hne
    | some d =>
      rw [hcandidates, hmax]
      refine ⟨d, hperm.symm.subset (List.argmax_mem hmax), slotGroup_singleton d, ?_⟩
      intro other hother
      exact List.le_of_mem_argmax (hperm.subset hother) hmax
  · rw [if_neg hcase]
    have hcandidates : candidates decisionScopePath t req target =
        Context.visibleFacts t req target := by
      unfold candidates
      rw [if_neg fun hcase' => hcase ⟨hempty.mp hcase'.1, hcase'.2⟩]
    rw [hcandidates]
    exact ⟨slotGroup_perm hvisible.symm, slotGroup_sorted _⟩

lemma Reordered.refl (s : FactStore) : Reordered s s := by
  refine ⟨fun _ => .refl _, rfl, fun id => ?_⟩
  cases s.currentVersions id with
  | none => exact .none
  | some rows => exact .some (.refl _)

lemma Reordered.slot_empty (h : Reordered s t)
    (hempty : slotGroup (candidates decisionScopePath s req target) = []) :
    slotGroup (candidates decisionScopePath t req target) = [] := by
  by_contra hne
  have hfilling := h.filling hne
  rw [slotGroup_eq_nil] at hempty
  unfold Filling at hfilling
  unfold candidates at hempty
  split at hempty
  · next hcase =>
    rw [if_pos hcase] at hfilling
    obtain ⟨d, hd, -⟩ := hfilling
    cases hmax : (Context.descendants decisionScopePath s req).argmax
        CanonicalFact.observedAt with
    | none =>
      rw [List.argmax_eq_none] at hmax
      simp [hmax] at hd
    | some d' => simp [hmax] at hempty
  · next hcase =>
    rw [if_neg hcase, hempty] at hfilling
    exact hne hfilling.1.eq_nil

lemma resolveRequirement_of_slot {fact : CanonicalFact} {others : List CanonicalFact}
    (hscope : resolveRequirementScope req.scope decisionScopePath = .ok (some target))
    (hslot : slotGroup (candidates decisionScopePath s req target) = fact :: others) :
    resolveRequirement host now decisionScopePath s req =
      judge host now s req fact (fact :: others) := by
  simp only [resolveRequirement, hscope, bind, Except.bind, hslot]

lemma resolveRequirement_of_empty
    (hscope : resolveRequirementScope req.scope decisionScopePath = .ok (some target))
    (hslot : slotGroup (candidates decisionScopePath s req target) = []) :
    resolveRequirement host now decisionScopePath s req = .ok (unknownFor req "no_fact") := by
  simp only [resolveRequirement, hscope, bind, Except.bind, hslot]
  rfl

lemma Reordered.resolveRequirement (h : Reordered s t)
    (hties : TiesAlike decisionScopePath s req host now) :
    resolveRequirement host now decisionScopePath t req =
      resolveRequirement host now decisionScopePath s req := by
  cases hscope : resolveRequirementScope req.scope decisionScopePath with
  | error e => simp only [Context.resolveRequirement, hscope, bind, Except.bind]
  | ok target =>
    cases target with
    | none => simp only [Context.resolveRequirement, hscope, bind, Except.bind]
    | some target =>
      cases hslot : slotGroup (candidates decisionScopePath s req target) with
      | nil =>
        rw [resolveRequirement_of_empty hscope hslot,
          resolveRequirement_of_empty hscope (h.slot_empty hslot)]
      | cons fact others =>
        cases hslot' : slotGroup (candidates decisionScopePath t req target) with
        | nil =>
          have hempty := h.symm.slot_empty hslot'
          rw [hslot] at hempty
          cases hempty
        | cons fact' others' =>
          have hfilling := (Reordered.refl s).filling (by rw [hslot]; simp)
          have hfilling' := h.filling (by rw [hslot']; simp)
          rw [hslot] at hfilling
          rw [hslot'] at hfilling'
          rw [resolveRequirement_of_slot hscope hslot, resolveRequirement_of_slot hscope hslot',
            h.judge]
          exact hties target hscope fact' others' fact others hfilling' hfilling

/-! ### A store for every filling -/

/-- The store with the facts of one predicate in another order. -/
def FactStore.arrange (s : FactStore) (predicate : String) (facts : List CanonicalFact) :
    FactStore :=
  { s with currentFacts := fun p => if p = predicate then facts else s.currentFacts p }

lemma reordered_arrange {predicate : String} {facts : List CanonicalFact}
    (h : (s.currentFacts predicate).Perm facts) : Reordered s (s.arrange predicate facts) := by
  refine ⟨fun p => ?_, rfl, (Reordered.refl s).currentVersions⟩
  by_cases hp : p = predicate
  · subst hp
    simpa [FactStore.arrange] using h
  · simp [FactStore.arrange, hp]

lemma argmax_cons_of_le {d : CanonicalFact} {facts : List CanonicalFact}
    (h : ∀ other ∈ facts, other.observedAt ≤ d.observedAt) :
    (d :: facts).argmax CanonicalFact.observedAt = some d := by
  rw [List.argmax_cons]
  cases hmax : facts.argmax CanonicalFact.observedAt with
  | none => rfl
  | some c => simp [not_lt.mpr (h c (List.argmax_mem hmax))]

lemma Filling.exists_order {group : List CanonicalFact}
    (h : Filling decisionScopePath s req target group) :
    ∃ t, Reordered s t ∧ slotGroup (candidates decisionScopePath t req target) = group := by
  unfold Filling at h
  split at h
  · -- the descendant is put in front of all others
    next hcase =>
    obtain ⟨d, hd, rfl, hlast⟩ := h
    obtain ⟨hmem, hbelow⟩ := List.mem_filter.mp hd
    have hperm : (s.currentFacts req.fact).Perm (d :: (s.currentFacts req.fact).erase d) :=
      List.perm_cons_erase hmem
    refine ⟨_, reordered_arrange hperm, ?_⟩
    have hvisible : Context.visibleFacts (s.arrange req.fact
        (d :: (s.currentFacts req.fact).erase d)) req target = [] := by
      have hsame : (Context.visibleFacts s req target).Perm (Context.visibleFacts (s.arrange
          req.fact (d :: (s.currentFacts req.fact).erase d)) req target) :=
        (reordered_arrange hperm).visibleFacts
      rw [hcase.1] at hsame
      exact hsame.nil_eq.symm
    have hdescendants : Context.descendants decisionScopePath (s.arrange req.fact
        (d :: (s.currentFacts req.fact).erase d)) req =
        d :: ((s.currentFacts req.fact).erase d).filter fun f =>
          startsWith f.scopePath (decisionScopePath ++ "/") := by
      simp only [Context.descendants, FactStore.arrange, if_true, List.filter_cons, hbelow]
    have hcandidates : candidates decisionScopePath (s.arrange req.fact
        (d :: (s.currentFacts req.fact).erase d)) req target = [d] := by
      unfold candidates
      rw [if_pos ⟨hvisible, hcase.2⟩, hdescendants, argmax_cons_of_le]
      · rfl
      · intro other hother
        obtain ⟨hother, hbelow'⟩ := List.mem_filter.mp hother
        exact hlast other (List.mem_filter.mpr ⟨List.mem_of_mem_erase hother, hbelow'⟩)
    rw [hcandidates, slotGroup_singleton]
  · next hcase =>
    obtain ⟨hperm, hsorted⟩ := h
    cases hmin : ((Context.visibleFacts s req target).map CanonicalFact.factEntityId).min? with
    | none =>
      refine ⟨s, .refl s, ?_⟩
      have hempty : Context.visibleFacts s req target = [] := by simpa using hmin
      rw [hempty] at hperm
      have hgroup : group = [] := hperm.eq_nil
      unfold candidates
      rw [if_neg hcase, hempty, hgroup]
      rfl
    | some entity =>
      -- the facts of the slot, in the wanted order, are put in front of all others
      rw [slotGroup_eq hmin] at hperm
      have hgroup := hperm.trans (List.perm_insertionSort _ _)
      let inSlot : CanonicalFact → Bool := fun f =>
        scopeVisible target f.scopePath (predicateSpec? req.fact) ∧ f.factEntityId = entity
      have hslot : (s.currentFacts req.fact).filter inSlot =
          (Context.visibleFacts s req target).filter fun f => f.factEntityId = entity := by
        simp only [Context.visibleFacts, List.filter_filter, inSlot]
        apply List.filter_congr
        intro f _
        simp [Bool.and_comm]
      rw [← hslot] at hgroup
      let facts := group ++ (s.currentFacts req.fact).filter fun f => !inSlot f
      have hfacts : (s.currentFacts req.fact).Perm facts :=
        (List.filter_append_perm inSlot _).symm.trans (hgroup.symm.append_right _)
      have hreordered := reordered_arrange hfacts
      refine ⟨_, hreordered, ?_⟩
      have hvisible : (Context.visibleFacts s req target).Perm
          (Context.visibleFacts (s.arrange req.fact facts) req target) :=
        hreordered.visibleFacts
      have hnonempty : ¬ (Context.visibleFacts (s.arrange req.fact facts) req target = [] ∧
          req.scope = "self") := by
        rintro ⟨hnil, hself⟩
        rw [hnil] at hvisible
        exact hcase ⟨hvisible.eq_nil, hself⟩
      have hmin' := min?_perm (hvisible.map CanonicalFact.factEntityId)
      rw [hmin] at hmin'
      have hmembers : ∀ f ∈ group, inSlot f = true :=
        fun f hf => (List.mem_filter.mp (hgroup.subset hf)).2
      have hfront : (Context.visibleFacts (s.arrange req.fact facts) req target).filter
          (fun f => f.factEntityId = entity) = group := by
        simp only [Context.visibleFacts, FactStore.arrange, if_true, List.filter_filter, facts,
          List.filter_append]
        rw [List.filter_eq_self.mpr, List.filter_eq_nil_iff.mpr, List.append_nil]
        · intro f _
          simp only [inSlot, Bool.and_eq_true, decide_eq_true_eq, Bool.not_eq_true',
            decide_eq_false_iff_not, not_and]
          intro hentity hvis hout
          exact hout hvis hentity
        · intro f hf
          have hin := hmembers f hf
          simp only [inSlot, decide_eq_true_eq] at hin
          simp [hin.1, hin.2]
      unfold candidates
      rw [if_neg hnonempty, slotGroup_eq hmin', hfront]
      exact hsorted.insertionSort_eq

/-! ### Advisory facts -/

lemma Reordered.advisoryFor (h : Reordered s t) {refs : List FactRef}
    (hrefs : advisoryFor host now s decisionScopePath req = .ok refs) :
    ∃ refs', advisoryFor host now t decisionScopePath req = .ok refs' ∧ refs.Perm refs' := by
  unfold Context.advisoryFor at *
  cases hscope : resolveRequirementScope req.scope decisionScopePath with
  | error e => simp [hscope, bind, Except.bind] at hrefs
  | ok target =>
    cases target with
    | none =>
      simp only [hscope, bind, Except.bind] at hrefs ⊢
      exact ⟨refs, hrefs, .refl refs⟩
    | some target =>
      simp only [hscope, bind, Except.bind] at hrefs ⊢
      have hvisible : (Context.visibleFacts s req target).Perm
          (Context.visibleFacts t req target) := h.visibleFacts
      exact mapM_perm (hvisible.filter _) hrefs

end Order

/-- No two facts of the predicate have one id, and no two below the decision one stamp. -/
structure Untied (decisionScopePath : String) (s : FactStore) (req : FactRequirement) : Prop where
  ids : ∀ f ∈ s.currentFacts req.fact, ∀ g ∈ s.currentFacts req.fact,
    f.factId = g.factId → f = g
  stamps : ∀ f ∈ descendants decisionScopePath s req, ∀ g ∈ descendants decisionScopePath s req,
    f.observedAt = g.observedAt → f = g

section Untied

variable {host : Host} {now decisionScopePath target : String} {s : FactStore}
  {req : FactRequirement}

lemma Untied.filling_unique (h : Untied decisionScopePath s req) {group group' : List CanonicalFact}
    (hfilling : Filling decisionScopePath s req target group)
    (hfilling' : Filling decisionScopePath s req target group') : group = group' := by
  unfold Filling at hfilling hfilling'
  split at hfilling
  · next hcase =>
    rw [if_pos hcase] at hfilling'
    obtain ⟨d, hd, rfl, hlast⟩ := hfilling
    obtain ⟨d', hd', rfl, hlast'⟩ := hfilling'
    rw [h.stamps d hd d' hd' (le_antisymm (hlast' d hd) (hlast d' hd'))]
  · next hcase =>
    rw [if_neg hcase] at hfilling'
    apply (hfilling.1.trans hfilling'.1.symm).eq_of_pairwise ?_ hfilling.2 hfilling'.2
    intro f g hf hg hfg hgf
    have hcurrent : ∀ f ∈ slotGroup (visibleFacts s req target), f ∈ s.currentFacts req.fact :=
      fun f hf => List.mem_of_mem_filter (mem_slotGroup hf)
    exact h.ids f (hcurrent f (hfilling.1.subset hf)) g (hcurrent g (hfilling'.1.subset hg))
      (le_antisymm hfg hgf)

lemma Untied.tiesAlike (h : Untied decisionScopePath s req) :
    TiesAlike decisionScopePath s req host now := by
  intro target _ fact others fact' others' hfilling hfilling'
  have hsame := h.filling_unique hfilling hfilling'
  cases hsame
  rfl

end Untied

/-! ### Contexts -/

section Contexts

variable {host : Host} {now : String} {s : FactStore} {request : ContextRequest}
  {contract : ContractSpec} {challenge : Option ChallengeProfile}
  {effective : List FactRequirement} {ctx : ControlContext}

/-- However the store orders its facts, the compiled context is the same exactly when the facts
that tie for a slot are judged alike. -/
theorem compileContext_order_independent (hlawful : s.Lawful)
    (heffective : composeRequirements host contract challenge = .ok effective)
    (hctx : compileContext host now s request contract challenge = .ok ctx) :
    (∀ t, Reordered s t → ∃ ctx', compileContext host now t request contract challenge = .ok ctx' ∧
        SameContext ctx ctx') ↔
      ∀ r ∈ contract.invariants ++ effective, TiesAlike request.scopePath s r host now := by
  obtain ⟨hscope, effective', advisory, heffective', hresolves, hadvisory, rfl⟩ :=
    compileContext_eq_ok.mp hctx
  rw [heffective, Except.ok.injEq] at heffective'
  subst heffective'
  constructor
  · intro hall r hr target htarget
    -- every filling is judged as the requirement came out in the given order
    suffices hjudge : ∀ fact others, Filling request.scopePath s r target (fact :: others) →
        judge host now s r fact (fact :: others) =
          .ok (outcome host now request.scopePath s r) by
      intro fact others fact' others' hfilling hfilling'
      rw [hjudge fact others hfilling, hjudge fact' others' hfilling']
    intro fact others hfilling
    obtain ⟨t, hreordered, hslot⟩ := hfilling.exists_order
    obtain ⟨ctx', hctx', hsame⟩ := hall t hreordered
    obtain ⟨-, effective', advisory', heffective', hresolves', -, rfl⟩ :=
      compileContext_eq_ok.mp hctx'
    rw [heffective, Except.ok.injEq] at heffective'
    subst heffective'
    have hout := (sameCanonical_iff hlawful (hreordered.lawful hlawful) hresolves hresolves').mp
      hsame.toSameCanonical r hr
    rw [hout, ← hresolves' r hr, resolveRequirement_of_slot htarget hslot, hreordered.judge]
  · intro hties t hreordered
    have hsame : ∀ r ∈ contract.invariants ++ effective,
        resolveRequirement host now request.scopePath t r =
          resolveRequirement host now request.scopePath s r :=
      fun r hr => hreordered.resolveRequirement (hties r hr)
    have hout : ∀ r ∈ contract.invariants ++ effective,
        outcome host now request.scopePath t r = outcome host now request.scopePath s r := by
      intro r hr
      simp only [outcome, hsame r hr]
    have hresolves' : Resolves host now request.scopePath t (contract.invariants ++ effective) := by
      intro r hr
      rw [hsame r hr, hresolves r hr, hout r hr]
    obtain ⟨advisory', hadvisory', hperms⟩ := mapM_rel
      (fun r _ refs hrefs => hreordered.advisoryFor hrefs) hadvisory
    refine ⟨_, compileContext_eq_ok.mpr ⟨hscope, effective, advisory', heffective, hresolves',
      hadvisory', rfl⟩, ?_⟩
    have hinvariants : (contract.invariants.map fun r =>
        (r, outcome host now request.scopePath t r)) = contract.invariants.map fun r =>
        (r, outcome host now request.scopePath s r) :=
      List.map_congr_left fun r hr => by rw [hout r (List.mem_append_left _ hr)]
    have hrequired : (effective.map fun r =>
        (r, outcome host now request.scopePath t r)) = effective.map fun r =>
        (r, outcome host now request.scopePath s r) :=
      List.map_congr_left fun r hr => by rw [hout r (List.mem_append_right _ hr)]
    constructor
    · constructor <;> simp only [compiled, snapshot, hinvariants, hrequired]
    · simp only [compiled, snapshot, hinvariants, hrequired]
    · simp only [compiled, snapshot, hinvariants, hrequired]
    · exact List.Perm.flatten_congr hperms

end Contexts

/-- The tests of one run of the implementation, passed. -/
def testedFacts : List CanonicalFact := routeFacts ++ [verifiedFact "r1" "true"]

theorem compileContext_order_independent_tested : ∃ ctx,
    compileContext routeHost oneOClock (inMemoryFactStore testedFacts) routeRequest routeNextJob
      none = .ok ctx ∧
    ∀ t, Reordered (inMemoryFactStore testedFacts) t → ∃ ctx',
      compileContext routeHost oneOClock t routeRequest routeNextJob none = .ok ctx' ∧
        SameContext ctx ctx' := by
  have hok : (compileContext routeHost oneOClock (inMemoryFactStore testedFacts) routeRequest
      routeNextJob none).toOption.map ControlContext.admissible = some true := by decide +kernel
  obtain ⟨ctx, hctx, -⟩ := ok_of_toOption_map hok
  refine ⟨ctx, hctx, ?_⟩
  have heffective : composeRequirements routeHost routeNextJob none =
      .ok routeNextJob.requiresFacts := by decide +kernel
  refine (compileContext_order_independent (inMemoryFactStore_lawful testedFacts) heffective
    hctx).mpr ?_
  intro r hr
  apply Untied.tiesAlike
  have hall : ∀ r ∈ routeNextJob.invariants ++ routeNextJob.requiresFacts,
      (∀ f ∈ (inMemoryFactStore testedFacts).currentFacts r.fact,
        ∀ g ∈ (inMemoryFactStore testedFacts).currentFacts r.fact, f.factId = g.factId → f = g) ∧
      ∀ f ∈ descendants routeRequest.scopePath (inMemoryFactStore testedFacts) r,
        ∀ g ∈ descendants routeRequest.scopePath (inMemoryFactStore testedFacts) r,
          f.observedAt = g.observedAt → f = g := by
    decide +kernel
  obtain ⟨hids, hstamps⟩ := hall r hr
  exact ⟨hids, hstamps⟩

/-- Two runs of one stamp with different verdicts: the store's order decides which one is cited. -/
theorem compileContext_follows_order :
    let run (first second : CanonicalFact) := compileContext routeHost oneOClock
      (inMemoryFactStore (routeFacts ++ [first, second])) routeRequest routeNextJob none
    ∃ ctx ctx', run (verifiedFact "r1" "true") (verifiedFact "r2" "false") = .ok ctx ∧
      run (verifiedFact "r2" "false") (verifiedFact "r1" "true") = .ok ctx' ∧
      ctx.job.map FactRef.value = ["1.5", "true"] ∧ ctx'.job.map FactRef.value = ["1.5", "false"] ∧
      ¬ SameContext ctx ctx' := by
  intro run
  have hfirst : (run (verifiedFact "r1" "true") (verifiedFact "r2" "false")).toOption.map
      (fun ctx => ctx.job.map FactRef.value) = some ["1.5", "true"] := by decide +kernel
  have hsecond : (run (verifiedFact "r2" "false") (verifiedFact "r1" "true")).toOption.map
      (fun ctx => ctx.job.map FactRef.value) = some ["1.5", "false"] := by decide +kernel
  obtain ⟨ctx, hctx, hvalues⟩ := ok_of_toOption_map hfirst
  obtain ⟨ctx', hctx', hvalues'⟩ := ok_of_toOption_map hsecond
  refine ⟨ctx, ctx', hctx, hctx', hvalues, hvalues', ?_⟩
  intro hsame
  rw [hsame.job, hvalues'] at hvalues
  exact absurd hvalues (by decide)

end AgenticDynamics.Context
