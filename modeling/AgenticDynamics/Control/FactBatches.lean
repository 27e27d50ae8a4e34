import AgenticDynamics.Control.FactChains
import AgenticDynamics.Library.JsonText

/-!
# Batches of facts

The versions of one batch are the changes of value among the facts that the guard lets through, so
the last of them decides what a second derivation finds: every fact of another value has to be
older than it. The heads that a batch leaves depend on the facts, not on their order.
-/

namespace AgenticDynamics.Control

open Python StableSort Knowledge

variable {digests : FactDigests} {e : String} {rows : List Row} {state : RegistryState}
  {head : Option RegistryHead} {f g : ObservedFact} {indexedAt : String}

/-! ### The versions of a chain -/

/-- The id of a head is not that of a version with another value. -/
def Annotated (digests : FactDigests) (head : RegistryHead) : Prop :=
  ∀ e c p, head.knowledgeId = digests.knowledgeId e c p →
    head.fingerprint = digests.fingerprint c.toFactValue

lemma FactRecord.head_annotated (r : FactRecord) : Annotated digests (r.head digests) := by
  intro e c p h
  obtain ⟨-, hc, -⟩ := digests.knowledgeId_injective h
  rw [← hc]
  rfl

lemma Grown.head_annotated (h : Grown digests rows) : ∀ head ∈ rowsHead rows,
    Annotated digests head := by
  intro head hhead e c p hid
  obtain ⟨k, hk, rfl⟩ := Option.map_eq_some_iff.mp hhead
  simp only at hid
  subst hid
  exact h.annotated e c p (List.mem_of_getLast? hk)

/-- The head of the batch after some records. -/
def headAfter (digests : FactDigests) (head : Option RegistryHead) (records : List FactRecord) :
    Option RegistryHead :=
  (records.getLast?.map (FactRecord.head digests)).or head

@[simp] lemma headAfter_nil : headAfter digests head [] = head := rfl

lemma headAfter_cons {r : FactRecord} {records : List FactRecord} :
    headAfter digests head (r :: records) = headAfter digests (some (r.head digests)) records := by
  rw [headAfter, headAfter, List.getLast?_cons]
  cases records.getLast? <;> rfl

lemma headAfter_annotated (h : ∀ h ∈ head, Annotated digests h) (records : List FactRecord) :
    ∀ h ∈ headAfter digests head records, Annotated digests h := by
  intro h' hh'
  cases hlast : records.getLast? with
  | none =>
    rw [headAfter, hlast] at hh'
    exact h h' hh'
  | some r =>
    rw [headAfter, hlast] at hh'
    cases hh'
    exact r.head_annotated

/-- The value in front of a fact: that of the fact before it, or the one of the head. -/
def valueBefore (digests : FactDigests) (head : Option RegistryHead)
    (before : List ObservedFact) : Option String :=
  (before.getLast?.map (factFingerprint digests)).or (head.map RegistryHead.fingerprint)

lemma verdict_annotated {head : RegistryHead} (h : Annotated digests head) :
    verdict digests state (some head) f =
      if head.fingerprint = factFingerprint digests f ∨ Stale digests state f then none
      else some ⟨f, some head.knowledgeId⟩ := by
  by_cases hsame : head.fingerprint = factFingerprint digests f
  · have hne : head.fingerprint ≠ "" := by
      rw [hsame]
      exact digests.fingerprint_ne_empty _
    simp [verdict, hsame, hsame ▸ hne]
  · have hid : head.knowledgeId ≠ FactRecord.knowledgeId digests ⟨f, none⟩ :=
      fun hid => hsame (h _ _ _ hid)
    by_cases hstale : Stale digests state f <;> simp [verdict, hsame, hid, hstale]

lemma verdict_fresh (h : ∀ h ∈ head, Annotated digests h) (hf : ¬ Stale digests state f) :
    verdict digests state head f =
      if head.map RegistryHead.fingerprint = some (factFingerprint digests f) then none
      else some ⟨f, head.map RegistryHead.knowledgeId⟩ := by
  cases head with
  | none => simp [verdict]
  | some head => simp [verdict_annotated (h head rfl), hf]

lemma chain_append (fs gs : List ObservedFact) :
    chain digests state head (fs ++ gs) = chain digests state head fs ++
      chain digests state (headAfter digests head (chain digests state head fs)) gs := by
  induction fs generalizing head with
  | nil => simp [chain]
  | cons f fs ih =>
    rw [List.cons_append, chain, chain]
    cases verdict digests state head f with
    | none => exact ih
    | some r =>
      dsimp only
      rw [ih, headAfter_cons, List.cons_append]

lemma chain_filter (hnone : head = none → ∀ f, ¬ Stale digests state f)
    (h : ∀ h ∈ head, Annotated digests h) (fs : List ObservedFact) :
    chain digests state head (fs.filter fun f => ¬ Stale digests state f) =
      chain digests state head fs := by
  induction fs generalizing head with
  | nil => rfl
  | cons f fs ih =>
    by_cases hf : Stale digests state f
    · obtain ⟨head, rfl⟩ : ∃ h, head = some h := by
        cases head with
        | none => exact absurd hf (hnone rfl f)
        | some head => exact ⟨head, rfl⟩
      rw [List.filter_cons_of_neg (by simpa using hf), ih hnone h]
      conv_rhs => rw [chain]
      rw [verdict_annotated (h head rfl), if_pos (Or.inr hf)]
    · rw [List.filter_cons_of_pos (by simpa using hf), chain, chain]
      cases verdict digests state head f with
      | none => exact ih hnone h
      | some r =>
        dsimp only
        rw [ih (fun hr => by cases hr) (by
          intro h' hh'
          cases hh'
          exact r.head_annotated)]

lemma headAfter_value (h : ∀ h ∈ head, Annotated digests h) {fs : List ObservedFact}
    (hfs : ∀ f ∈ fs, ¬ Stale digests state f) :
    (headAfter digests head (chain digests state head fs)).map RegistryHead.fingerprint =
      valueBefore digests head fs := by
  induction fs generalizing head with
  | nil => rfl
  | cons f fs ih =>
    have hrest : ∀ f ∈ fs, ¬ Stale digests state f := fun f hf => hfs f (List.mem_cons_of_mem _ hf)
    rw [chain, verdict_fresh h (hfs f List.mem_cons_self)]
    by_cases hsame : head.map RegistryHead.fingerprint = some (factFingerprint digests f)
    · rw [if_pos hsame]
      dsimp only
      rw [ih h hrest, valueBefore, valueBefore, hsame, List.getLast?_cons]
      cases fs.getLast? <;> rfl
    · rw [if_neg hsame]
      dsimp only
      rw [headAfter_cons, ih (by
        intro h' hh'
        cases hh'
        exact FactRecord.head_annotated _) hrest, valueBefore, valueBefore, List.getLast?_cons]
      cases fs.getLast? <;> rfl

lemma chain_eq_nil {head : RegistryHead} (h : Annotated digests head) (fs : List ObservedFact) :
    chain digests state (some head) fs = [] ↔
      ∀ f ∈ fs, head.fingerprint = factFingerprint digests f ∨ Stale digests state f := by
  induction fs with
  | nil => simp [chain]
  | cons f fs ih =>
    rw [chain, verdict_annotated h, List.forall_mem_cons]
    by_cases hf : head.fingerprint = factFingerprint digests f ∨ Stale digests state f
    · rw [if_pos hf]
      simp only [ih, hf, true_and]
    · rw [if_neg hf]
      simp [hf]

lemma chain_last (h : ∀ h ∈ head, Annotated digests h) {before after : List ObservedFact}
    (hbefore : ∀ f ∈ before, ¬ Stale digests state f) (hg : ¬ Stale digests state g)
    (hchange : valueBefore digests head before ≠ some (factFingerprint digests g))
    (hafter : ∀ f ∈ after, factFingerprint digests f = factFingerprint digests g) :
    ∃ r, (chain digests state head (before ++ g :: after)).getLast? = some r ∧ r.fact = g := by
  have hhead := headAfter_annotated h (chain digests state head before)
  rw [chain_append, chain, verdict_fresh hhead hg, headAfter_value h hbefore, if_neg hchange]
  dsimp only
  have hquiet : ∀ p, chain digests state (some (FactRecord.head digests ⟨g, p⟩)) after = [] :=
    fun p => (chain_eq_nil (FactRecord.head_annotated _) after).mpr fun f hf =>
      .inl (hafter f hf).symm
  rw [hquiet, List.getLast?_concat]
  exact ⟨_, rfl, rfl⟩

lemma exists_last_change (h : ∀ h ∈ head, Annotated digests h) {fs : List ObservedFact}
    (hfs : ∀ f ∈ fs, ¬ Stale digests state f) (hne : chain digests state head fs ≠ []) :
    ∃ before g after, fs = before ++ g :: after ∧
      valueBefore digests head before ≠ some (factFingerprint digests g) ∧
      ∀ f ∈ after, factFingerprint digests f = factFingerprint digests g := by
  induction fs using List.reverseRecOn with
  | nil => exact absurd rfl hne
  | append_singleton fs f ih =>
    have hold : ∀ f ∈ fs, ¬ Stale digests state f := fun f hf => hfs f (List.mem_append_left _ hf)
    have hhead := headAfter_annotated h (chain digests state head fs)
    by_cases hsame : valueBefore digests head fs = some (factFingerprint digests f)
    · have hnone : verdict digests state (headAfter digests head (chain digests state head fs)) f =
          none := by
        rw [verdict_fresh hhead (hfs f (by simp)), headAfter_value h hold, if_pos hsame]
      rw [chain_append, chain, hnone, chain, List.append_nil] at hne
      obtain ⟨before, g, after, rfl, hchange, hafter⟩ := ih hold hne
      refine ⟨before, g, after ++ [f], by simp, hchange, ?_⟩
      have hlast : valueBefore digests head (before ++ g :: after) =
          some (factFingerprint digests g) := by
        rw [valueBefore, List.getLast?_append, List.getLast?_cons]
        cases hend : after.getLast? with
        | none => rfl
        | some f' =>
          have hvalue := hafter f' (List.mem_of_getLast? hend)
          simp [hvalue]
      intro f' hf'
      rcases List.mem_append.mp hf' with hf' | hf'
      · exact hafter f' hf'
      · rw [List.mem_singleton.mp hf', ← Option.some_inj, ← hsame, hlast]
    · exact ⟨fs, f, [], rfl, hsame, fun _ hf' => absurd hf' List.not_mem_nil⟩

/-! ### Deriving a chain again -/

lemma lastLine_mem {k : String} {row : Row} (h : lastLine rows k = some row) : row ∈ rows :=
  (List.mem_filter.mp (List.mem_of_getLast? h)).1

lemma rowsHead_registered {head : RegistryHead} (h : rowsHead rows = some head)
    (hne : head.fingerprint ≠ "") : head.fingerprint ∈ (rowsState rows).fingerprints := by
  obtain ⟨k, -, rfl⟩ := Option.map_eq_some_iff.mp h
  cases hlast : lastLine rows k with
  | none =>
    rw [hlast] at hne
    have hnone : fingerprintFromReason reasonMark none = "" := by decide
    exact absurd hnone hne
  | some row =>
    rw [hlast] at hne
    simp only [Option.bind_some, fingerprintFromReason] at hne ⊢
    refine List.mem_filterMap.mpr ⟨row, lastLine_mem hlast, ?_⟩
    rw [rowFingerprint]
    split_ifs at hne ⊢ with hmark
    · rfl
    · exact absurd rfl hne

lemma Grown.facts_registered (h : Grown digests rows) {facts : List ObservedFact}
    (hstate : ∀ v ∈ state.fingerprints, v ∈ (rowsState rows).fingerprints) :
    ∀ f ∈ facts, factFingerprint digests f ∈ (rowsState (rowsAfter digests indexedAt rows
      (chain digests state (rowsHead rows) facts))).fingerprints := by
  induction facts generalizing rows with
  | nil => exact fun f hf => absurd hf List.not_mem_nil
  | cons f fs ih =>
    intro f' hf'
    rw [chain]
    cases hverdict : verdict digests state (rowsHead rows) f with
    | none =>
      dsimp only
      rcases List.mem_cons.mp hf' with rfl | hf'
      · rw [h.chain_fingerprints]
        refine List.mem_append_left _ ?_
        cases hhead : rowsHead rows with
        | none => simp [hhead, verdict] at hverdict
        | some head =>
          rw [hhead, verdict_annotated (h.head_annotated head hhead)] at hverdict
          split_ifs at hverdict with hskip
          rcases hskip with hsame | ⟨-, -, -, -, hold⟩
          · rw [← hsame]
            refine rowsHead_registered hhead ?_
            rw [hsame]
            exact digests.fingerprint_ne_empty _
          · exact hstate _ hold
      · exact ih h hstate f' hf'
    | some r =>
      have hr := verdict_follows hverdict
      have hhead := h.rowsHead_register hr indexedAt
      have hnext := h.rowsState_register hr indexedAt
      dsimp only
      rw [rowsAfter_cons, ← hhead]
      rcases List.mem_cons.mp hf' with rfl | hf'
      · rw [(h.register hr).chain_fingerprints, hnext, ← verdict_fact hverdict]
        exact List.mem_append_left _ (List.mem_append_right _ List.mem_cons_self)
      · refine ih (h.register hr) (fun v hv => ?_) f' hf'
        rw [hnext]
        exact List.mem_append_left _ (hstate v hv)

/-- The guard of a second derivation lets a fact of another value through exactly when the fact is
not older than the last version. -/
lemma Grown.chain_again (h : Grown digests rows) {facts : List ObservedFact} {r : FactRecord}
    (hlast : (chain digests (rowsState rows) (rowsHead rows) facts).getLast? = some r)
    {after : List Row}
    (hafter : after = rowsAfter digests indexedAt rows
      (chain digests (rowsState rows) (rowsHead rows) facts)) :
    chain digests (rowsState after) (rowsHead after) facts = [] ↔
      ∀ f ∈ facts, factFingerprint digests f = factFingerprint digests r.fact ∨
        (f.observedAt ≠ "" ∧ f.observedAt < r.fact.observedAt) := by
  obtain ⟨hhead, hobserved⟩ := h.chain_head indexedAt _ facts hlast
  have hregistered : ∀ f ∈ facts, factFingerprint digests f ∈ (rowsState after).fingerprints := by
    rw [hafter]
    exact h.facts_registered fun _ hv => hv
  rw [← hafter] at hhead hobserved
  rw [hhead, chain_eq_nil r.head_annotated]
  refine forall₂_congr fun f hf => or_congr eq_comm ?_
  have hold := hregistered f hf
  rw [Stale, hobserved]
  constructor
  · rintro ⟨at', hat, hne, hlt, -⟩
    rw [truthy, Option.mem_def, Option.filter_eq_some_iff] at hat
    cases hat.1
    exact ⟨hne, hlt⟩
  · rintro ⟨hne, hlt⟩
    refine ⟨r.fact.observedAt, ?_, hne, hlt, hold⟩
    have hhead_ne : r.fact.observedAt ≠ "" := by
      intro hempty
      rw [hempty] at hlt
      rw [String.lt_iff_toList_lt] at hlt
      exact absurd hlt (List.not_lt_nil _)
    simp [truthy, Option.filter, hhead_ne]

/-! ### The lines of one entity -/

lemma entityLines_append (log more : List Line) :
    entityLines e (log ++ more) = entityLines e log ++ entityLines e more :=
  List.filterMap_append

lemma recordRows_row {r : FactRecord} {row : Row} (h : row ∈ recordRows digests indexedAt r) :
    row.entityId = some r.fact.factEntityId ∧ row.kid ≠ "" := by
  have hcurrent : (r.current digests indexedAt).kid ≠ "" := digests.knowledgeId_ne_empty _ _ _
  cases hp : truthy r.supersedes with
  | none =>
    have hrows : recordRows digests indexedAt r = [r.current digests indexedAt] := by
      simp [recordRows, registryLinesFor, factOperation, hp]
    rw [hrows, List.mem_singleton] at h
    rw [h]
    exact ⟨rfl, hcurrent⟩
  | some p =>
    have hrows : recordRows digests indexedAt r =
        [r.current digests indexedAt, r.closing indexedAt p] := by
      simp [recordRows, registryLinesFor, factOperation, hp]
    have hne : p ≠ "" := by
      rw [truthy, Option.filter_eq_some_iff] at hp
      simpa using hp.2
    rw [hrows, List.mem_pair] at h
    rcases h with rfl | rfl
    · exact ⟨rfl, hcurrent⟩
    · exact ⟨rfl, hne⟩

lemma entityLines_recordRows (r : FactRecord) :
    entityLines e ((recordRows digests indexedAt r).map .row) =
      if r.fact.factEntityId = e then recordRows digests indexedAt r else [] := by
  rw [entityLines, List.filterMap_map]
  split_ifs with h
  · conv_rhs => rw [← List.filterMap_some (l := recordRows digests indexedAt r)]
    refine List.filterMap_congr fun row hrow => ?_
    obtain ⟨hentity, hkid⟩ := recordRows_row hrow
    simp [hentity, hkid, h]
  · rw [List.filterMap_eq_nil_iff]
    intro row hrow
    simp [(recordRows_row hrow).1, h]

lemma entityLines_register (log : List Line) (records : List FactRecord) :
    entityLines e (register digests indexedAt log records) =
      rowsAfter digests indexedAt (entityLines e log)
        (records.filter fun r => r.fact.factEntityId = e) := by
  rw [register, entityLines_append, rowsAfter]
  congr 1
  induction records with
  | nil => rfl
  | cons r rs ih =>
    rw [List.flatMap_cons, entityLines_append, entityLines_recordRows, ih]
    by_cases h : r.fact.factEntityId = e
    · rw [if_pos h, List.filter_cons_of_pos (by simpa using h), List.flatMap_cons]
    · rw [if_neg h, List.filter_cons_of_neg (by simpa using h), List.nil_append]

end AgenticDynamics.Control
