import AgenticDynamics.Control.FactBatches

/-!
# What registering facts keeps

A registry is written a batch at a time. Deriving the same facts again gives nothing exactly when
no fact of another value was observed as late as the last one that was registered. A batch leaves
one version open for each entity, with the value of the latest fact that the guard lets through.
-/

namespace AgenticDynamics.Control

open Python StableSort Knowledge

variable {digests : FactDigests} {e : String} {log : List Line} {indexedAt : String}
  {facts : List ObservedFact}

/-! ### A registry over its batches -/

lemma entityLines_batch : entityLines e (register digests indexedAt log
      (deriveFactRecords digests log facts).records) =
    rowsAfter digests indexedAt (entityLines e log)
      (chain digests (rowsState (entityLines e log)) (rowsHead (entityLines e log))
        (factsOf e facts)) := by
  rw [entityLines_register, deriveFactRecords_entity, registryState_rows, registryHead_rows]

lemma grown_batch (h : Grown digests (entityLines e log)) :
    Grown digests (entityLines e (register digests indexedAt log
      (deriveFactRecords digests log facts).records)) := by
  rw [entityLines_batch]
  exact h.chain_grown _ _

/-- A log that is written by registering batches, with other lines between them. -/
inductive FactRegistry (digests : FactDigests) : List Line → Prop
  | empty : FactRegistry digests []
  | batch (log : List Line) (indexedAt : String) (facts : List ObservedFact) :
      FactRegistry digests log → FactRegistry digests
        (register digests indexedAt log (deriveFactRecords digests log facts).records)
  | other (log : List Line) (line : Line) (h : ∀ e, entityLines e [line] = []) :
      FactRegistry digests log → FactRegistry digests (log ++ [line])

lemma grown_nil : Grown digests [] where
  ids _ h := absurd h List.not_mem_nil
  head h := absurd rfl h
  linked e c p h := by simp [Mentioned, Closed] at h
  annotated e c p h := by simp [openVersions, firsts] at h

lemma FactRegistry.grown (h : FactRegistry digests log) (e : String) :
    Grown digests (entityLines e log) := by
  induction h with
  | empty => exact grown_nil
  | batch log indexedAt facts h ih => exact grown_batch ih
  | other log line hline h ih =>
    rw [entityLines_append, hline, List.append_nil]
    exact ih

/-! ### Deriving twice -/

/-- The facts of the entity that the guard lets through, in the order of their observation. -/
def admitted (digests : FactDigests) (e : String) (log : List Line) (facts : List ObservedFact) :
    List ObservedFact :=
  (factsOf e facts).filter fun f => ¬ Stale digests (registryState e log) f

/-- The last fact that changes the value is later than the facts of another value. -/
def Settled (digests : FactDigests) (e : String) (log : List Line) (facts : List ObservedFact) :
    Prop :=
  ∀ before g after, admitted digests e log facts = before ++ g :: after →
    valueBefore digests (registryHead e reasonMark (some log)) before ≠
      some (factFingerprint digests g) →
    (∀ f ∈ after, factFingerprint digests f = factFingerprint digests g) →
    ∀ f ∈ factsOf e facts, factFingerprint digests f = factFingerprint digests g ∨
      (f.observedAt ≠ "" ∧ f.observedAt < g.observedAt)

/-- A second derivation, behind the lines of the first one, gives no record. -/
def DerivesOnce (digests : FactDigests) (indexedAt : String) (log : List Line)
    (facts : List ObservedFact) : Prop :=
  (deriveFactRecords digests (register digests indexedAt log
    (deriveFactRecords digests log facts).records) facts).records = []

lemma rowsHead_none {rows : List Row} (h : rowsHead rows = none) (f : ObservedFact) :
    ¬ Stale digests (rowsState rows) f := by
  rintro ⟨head, hhead, -⟩
  rw [rowsHead, Option.map_eq_none_iff] at h
  rw [rowsState, h] at hhead
  cases hhead

lemma chain_admitted (h : Grown digests (entityLines e log)) :
    chain digests (rowsState (entityLines e log)) (rowsHead (entityLines e log))
        (factsOf e facts) =
      chain digests (rowsState (entityLines e log)) (rowsHead (entityLines e log))
        (admitted digests e log facts) := by
  rw [admitted, registryState_rows]
  exact (chain_filter rowsHead_none h.head_annotated _).symm

lemma admitted_fresh : ∀ f ∈ admitted digests e log facts,
    ¬ Stale digests (rowsState (entityLines e log)) f := by
  intro f hf
  rw [admitted, registryState_rows] at hf
  simpa using (List.mem_filter.mp hf).2

lemma admitted_subset : admitted digests e log facts ⊆ factsOf e facts :=
  fun _ hf => (List.mem_filter.mp hf).1

lemma chain_again_iff (h : Grown digests (entityLines e log)) :
    chain digests (rowsState (entityLines e (register digests indexedAt log
        (deriveFactRecords digests log facts).records)))
      (rowsHead (entityLines e (register digests indexedAt log
        (deriveFactRecords digests log facts).records))) (factsOf e facts) = [] ↔
      Settled digests e log facts := by
  have hfresh : ∀ f ∈ admitted digests e log facts, _ := admitted_fresh
  constructor
  · intro hquiet before g after hsplit hchange hafter
    rw [registryHead_rows] at hchange
    rw [hsplit] at hfresh
    obtain ⟨r, hlast, rfl⟩ := chain_last h.head_annotated
      (fun f hf => hfresh f (List.mem_append_left _ hf))
      (hfresh g (List.mem_append_right _ List.mem_cons_self)) hchange hafter
    rw [← hsplit, ← chain_admitted h] at hlast
    exact (h.chain_again hlast entityLines_batch).mp hquiet
  · intro hsettled
    by_cases hnil : chain digests (rowsState (entityLines e log)) (rowsHead (entityLines e log))
        (factsOf e facts) = []
    · rw [entityLines_batch, hnil, rowsAfter, List.flatMap_nil, List.append_nil]
      exact hnil
    · rw [chain_admitted h] at hnil
      obtain ⟨before, g, after, hsplit, hchange, hafter⟩ :=
        exists_last_change h.head_annotated hfresh hnil
      have hlater := hsettled before g after hsplit (by rwa [registryHead_rows]) hafter
      rw [hsplit] at hfresh
      obtain ⟨r, hlast, rfl⟩ := chain_last h.head_annotated
        (fun f hf => hfresh f (List.mem_append_left _ hf))
        (hfresh g (List.mem_append_right _ List.mem_cons_self)) hchange hafter
      rw [← hsplit, ← chain_admitted h] at hlast
      exact (h.chain_again hlast entityLines_batch).mpr hlater

lemma derivesOnce_iff : DerivesOnce digests indexedAt log facts ↔
    ∀ e, chain digests (rowsState (entityLines e (register digests indexedAt log
        (deriveFactRecords digests log facts).records)))
      (rowsHead (entityLines e (register digests indexedAt log
        (deriveFactRecords digests log facts).records))) (factsOf e facts) = [] := by
  simp only [← registryState_rows, ← registryHead_rows, ← deriveFactRecords_entity]
  constructor
  · intro honce e
    rw [show (deriveFactRecords digests _ facts).records = [] from honce, List.filter_nil]
  · intro hnone
    refine List.eq_nil_iff_forall_not_mem.mpr fun r hr => ?_
    have hempty := hnone r.fact.factEntityId
    rw [List.filter_eq_nil_iff] at hempty
    exact hempty r hr (by simp)

/-- On a log that has grown by registration, registering facts is idempotent exactly when the facts
of every entity are settled; the log has grown by registration again. -/
theorem registration_idempotent_iff (hlog : ∀ e, Grown digests (entityLines e log))
    (indexedAt : String) (facts : List ObservedFact) :
    (DerivesOnce digests indexedAt log facts ↔ ∀ e, Settled digests e log facts) ∧
      ∀ e, Grown digests (entityLines e (register digests indexedAt log
        (deriveFactRecords digests log facts).records)) := by
  refine ⟨?_, fun e => grown_batch (hlog e)⟩
  rw [derivesOnce_iff]
  exact forall_congr' fun e => chain_again_iff (hlog e)

/-! ### Digests that are their documents -/

def textJson : Option String → Json
  | none   => .null
  | some s => .str s

lemma textJson_injective : Function.Injective textJson := by
  intro s s' h
  cases s <;> cases s' <;> simp_all [textJson]

def FactValue.json (v : FactValue) : Json :=
  .arr [.str v.abstractionLevel, textJson v.expiresAt, .str v.predicate, .str v.reducerVersion,
    .str v.scopePath, .str v.subjectId, .str v.subjectType, .str v.unit, .str v.value,
    .str v.valueType]

lemma FactValue.json_injective : Function.Injective FactValue.json := by
  intro v v' h
  cases v
  cases v'
  simpa [FactValue.json, textJson_injective.eq_iff, and_assoc] using h

def FactContent.json (c : FactContent) : Json :=
  .arr [c.toFactValue.json, .arr (c.evidenceIds.map .str), .str c.inputsDigest, .str c.scopeType,
    .str c.scopeId, .str c.repositoryId, .str c.sourceRevision, .str c.authority.name,
    .str c.evidenceClass, textJson c.validTo]

lemma FactContent.json_injective : Function.Injective FactContent.json := by
  intro c c' h
  have hstr : Function.Injective Json.str := fun _ _ h => Json.str.inj h
  cases c
  cases c'
  simpa [FactContent.json, textJson_injective.eq_iff, FactValue.json_injective.eq_iff,
    Context.Authority.name_injective.eq_iff, (List.map_injective_iff.mpr hstr).eq_iff] using h

def documentText (value : Json) : String := String.ofList (Json.render .fraction value)

lemma documentText_injective : Function.Injective documentText := fun _ _ h =>
  Json.render_injective (String.ofList_injective h)

lemma documentText_ne_empty (value : Json) : documentText value ≠ "" := by
  obtain ⟨c, cs, h, -⟩ := Json.render_start .fraction value
  rw [documentText, h]
  simp

/-- Without a hash function the digest of a fact is its document. -/
def documentDigests : FactDigests where
  fingerprint v := documentText v.json
  knowledgeId e c p := documentText (.arr [.str e, c.json, textJson p])
  fingerprint_injective := documentText_injective.comp FactValue.json_injective
  fingerprint_ne_empty _ := documentText_ne_empty _
  knowledgeId_injective := by
    intro e c p e' c' p' h
    simpa [FactContent.json_injective.eq_iff, textJson_injective.eq_iff] using
      documentText_injective h
  knowledgeId_ne_empty _ _ _ := documentText_ne_empty _

def reading (value observedAt : String) : ObservedFact where
  factEntityId := "fact:cell"
  content :=
    { abstractionLevel := "run", expiresAt := none, predicate := "outcome",
      reducerVersion := "job_facts/v1", scopePath := "cell", subjectId := "cell",
      subjectType := "cell", unit := "", value, valueType := "string", evidenceIds := [],
      inputsDigest := "", scopeType := "cell", scopeId := "cell", repositoryId := "",
      sourceRevision := "", authority := .measured, evidenceClass := "run", validTo := none }
  observedAt
  validFrom := observedAt
  entity_ne_empty := by decide

lemma reading_fingerprint {value value' observedAt observedAt' : String} :
    factFingerprint digests (reading value observedAt) =
      factFingerprint digests (reading value' observedAt') ↔ value = value' := by
  rw [factFingerprint, factFingerprint, digests.fingerprint_injective.eq_iff]
  simp [reading]

lemma factsOf_readings (hfacts : ∀ f ∈ facts, f.factEntityId = e)
    (hsorted : facts.Pairwise fun f f' => f.observedAt ≤ f'.observedAt) :
    factsOf e facts = facts := by
  have hsort : sortBy ObservedFact.observedAt facts = facts :=
    List.mergeSort_of_pairwise (hsorted.imp fun h => by simpa using h)
  rw [factsOf, hsort]
  exact List.filter_eq_self.mpr fun f hf => by simpa using hfacts f hf

/-- One fact behind the registration of another one. -/
theorem registration_idempotent_reading : DerivesOnce documentDigests "t2"
    (register documentDigests "t1" []
      (deriveFactRecords documentDigests [] [reading "low" "a"]).records)
    [reading "high" "b"] := by
  refine (registration_idempotent_iff (FactRegistry.grown (.batch _ _ _ .empty)) _ _).1.mpr ?_
  intro e before g after hsplit _ _ f hf
  have honly : ∀ f ∈ factsOf e [reading "high" "b"], f = reading "high" "b" := fun f hf => by
    simpa using mem_sortBy.mp (List.mem_filter.mp hf).1
  have hg : g ∈ before ++ g :: after := List.mem_append_right _ List.mem_cons_self
  rw [← hsplit] at hg
  left
  rw [honly f hf, honly g (admitted_subset hg)]

/-- Two values that were observed at one time are registered again and again. -/
theorem tied_readings_flap : ¬ DerivesOnce documentDigests "t1" []
    [reading "low" "a", reading "high" "a"] := by
  rw [derivesOnce_iff]
  intro honce
  have hfacts : factsOf "fact:cell" [reading "low" "a", reading "high" "a"] =
      [reading "low" "a", reading "high" "a"] :=
    factsOf_readings (by simp [reading]) (by simp [reading])
  have hadmitted : admitted documentDigests "fact:cell" []
      [reading "low" "a", reading "high" "a"] = [reading "low" "a", reading "high" "a"] := by
    rw [admitted, hfacts, List.filter_eq_self]
    intro f _
    rw [registryState_rows, decide_eq_true_eq]
    exact rowsHead_none rfl f
  have hsettled := (chain_again_iff grown_nil).mp (honce "fact:cell")
  have hlow := hsettled [reading "low" "a"] (reading "high" "a") [] hadmitted
    (by simp [valueBefore, reading_fingerprint]) (by simp) (reading "low" "a") (by simp [hfacts])
  rw [reading_fingerprint] at hlow
  rcases hlow with hvalue | ⟨-, hlt⟩
  · exact absurd hvalue (by decide)
  · exact absurd hlt (lt_irrefl _)

/-! ### The heads that a batch leaves -/

lemma Grown.rowsHead_chain {rows : List Row} (h : Grown digests rows) (indexedAt : String)
    (state : RegistryState) (facts : List ObservedFact) :
    rowsHead (rowsAfter digests indexedAt rows (chain digests state (rowsHead rows) facts)) =
      headAfter digests (rowsHead rows) (chain digests state (rowsHead rows) facts) := by
  cases hlast : (chain digests state (rowsHead rows) facts).getLast? with
  | none =>
    rw [List.getLast?_eq_none_iff] at hlast
    rw [hlast, rowsAfter, List.flatMap_nil, List.append_nil, headAfter_nil]
  | some r =>
    rw [(h.chain_head indexedAt state facts hlast).1, headAfter, hlast]
    rfl

lemma Grown.chain_open {rows : List Row} (h : Grown digests rows)
    (hone : rows ≠ [] → ∃ k, openVersions rows = [k]) (state : RegistryState)
    (facts : List ObservedFact)
    (hne : rowsAfter digests indexedAt rows (chain digests state (rowsHead rows) facts) ≠ []) :
    ∃ k, openVersions (rowsAfter digests indexedAt rows
      (chain digests state (rowsHead rows) facts)) = [k] := by
  induction facts generalizing rows with
  | nil =>
    rw [chain, rowsAfter, List.flatMap_nil, List.append_nil] at hne ⊢
    exact hone hne
  | cons f fs ih =>
    rw [chain] at hne ⊢
    cases hverdict : verdict digests state (rowsHead rows) f with
    | none =>
      rw [hverdict] at hne
      exact ih h hone hne
    | some r =>
      have hr := verdict_follows hverdict
      have hhead := h.rowsHead_register hr indexedAt
      rw [hverdict] at hne
      dsimp only at hne ⊢
      rw [rowsAfter_cons, ← hhead] at hne ⊢
      refine ih (h.register hr) (fun _ => ⟨r.knowledgeId digests, ?_⟩) hne
      have hclosed : (openVersions rows).filter (fun k => r.supersedes ≠ some k) = [] := by
        rw [show r.supersedes = _ from hr]
        by_cases hnil : rows = []
        · rw [hnil]
          rfl
        · obtain ⟨k, hk⟩ := hone hnil
          simp [hk]
      rw [h.openVersions_register hr, hclosed, List.nil_append]

/-- No two facts of an entity were observed at one time. -/
def DistinctTimes (facts : List ObservedFact) : Prop :=
  facts.Pairwise fun f f' => f.factEntityId = f'.factEntityId → f.observedAt ≠ f'.observedAt

lemma DistinctTimes.eq {f f' : ObservedFact} (h : DistinctTimes facts) (hf : f ∈ facts)
    (hf' : f' ∈ facts) (hentity : f.factEntityId = f'.factEntityId)
    (hat : f.observedAt = f'.observedAt) : f = f' := by
  by_contra hne
  have : Std.Symm fun f f' : ObservedFact =>
      f.factEntityId = f'.factEntityId → f.observedAt ≠ f'.observedAt :=
    ⟨fun _ _ hR hentity hat => hR hentity.symm hat.symm⟩
  exact List.Pairwise.forall h hf hf' hne hentity hat

lemma mem_factsOf {f : ObservedFact} : f ∈ factsOf e facts ↔ f ∈ facts ∧ f.factEntityId = e := by
  simp [factsOf]

lemma factsOf_pairwise (e : String) (facts : List ObservedFact) :
    (factsOf e facts).Pairwise fun f f' => f.observedAt ≤ f'.observedAt :=
  (sortBy_pairwise _ _).filter _

lemma DistinctTimes.factsOf_perm {facts' : List ObservedFact} (h : DistinctTimes facts)
    (hperm : facts'.Perm facts) : factsOf e facts' = factsOf e facts := by
  refine List.Perm.eq_of_pairwise ?_ (factsOf_pairwise e facts') (factsOf_pairwise e facts) ?_
  · intro f f' hf hf' hle hge
    rw [mem_factsOf] at hf hf'
    exact h.eq (hperm.mem_iff.mp hf.1) hf'.1 (hf.2.trans hf'.2.symm) (le_antisymm hle hge)
  · exact (((sortBy_perm _ _).trans hperm).trans (sortBy_perm _ _).symm).filter _

lemma DistinctTimes.admitted_last {f : ObservedFact} (h : DistinctTimes facts)
    (hf : f ∈ admitted digests e log facts)
    (hlatest : ∀ f' ∈ admitted digests e log facts, f'.observedAt ≤ f.observedAt) :
    (admitted digests e log facts).getLast? = some f := by
  cases hend : (admitted digests e log facts).getLast? with
  | none => exact absurd (List.getLast?_eq_none_iff.mp hend) (List.ne_nil_of_mem hf)
  | some last =>
    obtain ⟨init, hsplit⟩ := List.getLast?_eq_some_iff.mp hend
    have hlast : last ∈ admitted digests e log facts := by simp [hsplit]
    have hle : f.observedAt ≤ last.observedAt := by
      have hsorted : (admitted digests e log facts).Pairwise
          fun f f' => f.observedAt ≤ f'.observedAt := (factsOf_pairwise e facts).filter _
      rw [hsplit] at hf hsorted
      rcases List.mem_append.mp hf with hf | hf
      · exact (List.pairwise_append.mp hsorted).2.2 f hf last List.mem_cons_self
      · rw [List.mem_singleton.mp hf]
    have hmem := mem_factsOf.mp (admitted_subset hf)
    have hmem_last := mem_factsOf.mp (admitted_subset hlast)
    have heq : f = last := h.eq hmem.1 hmem_last.1 (hmem.2.trans hmem_last.2.symm)
      (le_antisymm hle (hlatest last hlast))
    rw [heq]

lemma mem_admitted {f : ObservedFact} : f ∈ admitted digests e log facts ↔
    (f ∈ facts ∧ f.factEntityId = e) ∧ ¬ Stale digests (registryState e log) f := by
  rw [admitted, List.mem_filter, mem_factsOf, decide_eq_true_eq]

lemma entityLines_stale (h : Grown digests (entityLines e log))
    (hstale : ∀ f ∈ facts, f.factEntityId = e → Stale digests (registryState e log) f) :
    entityLines e (register digests indexedAt log (deriveFactRecords digests log facts).records) =
      entityLines e log := by
  have hnone : admitted digests e log facts = [] := by
    refine List.eq_nil_iff_forall_not_mem.mpr fun f hf => ?_
    obtain ⟨⟨hmem, hentity⟩, hfresh⟩ := mem_admitted.mp hf
    exact hfresh (hstale f hmem hentity)
  rw [entityLines_batch, chain_admitted h, hnone, chain, rowsAfter, List.flatMap_nil,
    List.append_nil]

/-- The one open version of an entity is the head, and has the given value. -/
def OpenValue (digests : FactDigests) (e : String) (log : List Line) (f : ObservedFact) : Prop :=
  ∃ k, openVersions (entityLines e log) = [k] ∧
    registryHead e reasonMark (some log) = some ⟨k, factFingerprint digests f⟩

/-- What a batch of facts leaves of each entity: at most one open version, with the value of the
latest fact that is not stale; the lines that it had, if all of them are; and the same head for
every order of the batch. -/
theorem batch_keeps_one_chain (hlog : ∀ e, Grown digests (entityLines e log))
    (hone : ∀ e, entityLines e log ≠ [] → ∃ k, openVersions (entityLines e log) = [k])
    (hdistinct : DistinctTimes facts) (indexedAt : String) (e : String) :
    let after := fun facts =>
      register digests indexedAt log (deriveFactRecords digests log facts).records
    (entityLines e (after facts) ≠ [] →
      ∃ k, openVersions (entityLines e (after facts)) = [k]) ∧
    (∀ f ∈ facts, f.factEntityId = e → ¬ Stale digests (registryState e log) f →
      (∀ f' ∈ facts, f'.factEntityId = e → ¬ Stale digests (registryState e log) f' →
        f'.observedAt ≤ f.observedAt) → OpenValue digests e (after facts) f) ∧
    ((∀ f ∈ facts, f.factEntityId = e → Stale digests (registryState e log) f) →
      entityLines e (after facts) = entityLines e log) ∧
    ∀ facts', facts'.Perm facts → registryHead e reasonMark (some (after facts')) =
      registryHead e reasonMark (some (after facts)) := by
  have hopen : entityLines e (register digests indexedAt log
      (deriveFactRecords digests log facts).records) ≠ [] →
      ∃ k, openVersions (entityLines e (register digests indexedAt log
        (deriveFactRecords digests log facts).records)) = [k] := by
    rw [entityLines_batch]
    exact (hlog e).chain_open (hone e) _ _
  refine ⟨hopen, fun f hf hentity hfresh hlatest => ?_, fun hstale => ?_, fun facts' hperm => ?_⟩
  · have hmem : f ∈ admitted digests e log facts := mem_admitted.mpr ⟨⟨hf, hentity⟩, hfresh⟩
    have hlast := hdistinct.admitted_last hmem fun f' hf' => by
      obtain ⟨⟨hf', hentity'⟩, hfresh'⟩ := mem_admitted.mp hf'
      exact hlatest f' hf' hentity' hfresh'
    have hvalue : (headAfter digests (rowsHead (entityLines e log)) (chain digests _ _
        (admitted digests e log facts))).map RegistryHead.fingerprint = _ :=
      headAfter_value (hlog e).head_annotated admitted_fresh
    rw [← chain_admitted (hlog e), ← (hlog e).rowsHead_chain indexedAt, ← entityLines_batch,
      valueBefore, hlast, rowsHead] at hvalue
    obtain ⟨head, hhead, hfingerprint⟩ := Option.map_eq_some_iff.mp hvalue
    obtain ⟨k, hk, rfl⟩ := Option.map_eq_some_iff.mp hhead
    obtain ⟨k', hk'⟩ := hopen (by
      intro hnil
      rw [hnil] at hk
      cases hk)
    have heq : k' = k := by simpa [hk'] using hk
    refine ⟨k, heq ▸ hk', ?_⟩
    rw [registryHead_rows, rowsHead, hk, Option.map_some, ← hfingerprint]
  · exact entityLines_stale (hlog e) hstale
  · simp only
    rw [registryHead_rows, registryHead_rows, entityLines_batch, entityLines_batch,
      hdistinct.factsOf_perm hperm]

/-- Two readings of a cell that has none yet. -/
theorem batch_keeps_one_chain_readings : OpenValue documentDigests "fact:cell"
    (register documentDigests "t1" []
      (deriveFactRecords documentDigests [] [reading "low" "a", reading "high" "b"]).records)
    (reading "high" "b") := by
  have hdistinct : DistinctTimes [reading "low" "a", reading "high" "b"] := by
    simp [DistinctTimes, reading]
  refine (batch_keeps_one_chain (fun _ => grown_nil) (fun _ h => absurd rfl h) hdistinct "t1"
    "fact:cell").2.1 _ (by simp) rfl ?_ ?_
  · rw [registryState_rows]
    exact rowsHead_none rfl _
  · intro f hf _ _
    rcases List.mem_pair.mp hf with rfl | rfl <;> decide

/-- The later of two readings stays the head when the earlier one is derived again. -/
theorem stale_reading_keeps_head :
    let log := register documentDigests "t1" []
      (deriveFactRecords documentDigests [] [reading "low" "a", reading "high" "b"]).records
    (∀ e, entityLines e log ≠ [] → ∃ k, openVersions (entityLines e log) = [k]) ∧
      DistinctTimes [reading "low" "a"] ∧
      ¬ OpenValue documentDigests "fact:cell" (register documentDigests "t2" log
        (deriveFactRecords documentDigests log [reading "low" "a"]).records)
        (reading "low" "a") := by
  intro log
  have hfacts : factsOf "fact:cell" [reading "low" "a", reading "high" "b"] =
      [reading "low" "a", reading "high" "b"] :=
    factsOf_readings (by simp [reading]) (by simp [reading])
  have hlines : entityLines "fact:cell" log = rowsAfter documentDigests "t1" []
      (chain documentDigests (rowsState []) (rowsHead [])
        [reading "low" "a", reading "high" "b"]) := by
    rw [← hfacts]
    exact entityLines_batch
  have hnone : ∀ f, ¬ Stale documentDigests (rowsState []) f := rowsHead_none rfl
  obtain ⟨r, hlast, hr⟩ : ∃ r, (chain documentDigests (rowsState []) (rowsHead [])
      ([reading "low" "a"] ++ [reading "high" "b"])).getLast? = some r ∧
        r.fact = reading "high" "b" :=
    chain_last grown_nil.head_annotated (fun f _ => hnone f) (hnone _)
      (by simp [valueBefore, reading_fingerprint]) (by simp)
  obtain ⟨hhead, hobserved⟩ := grown_nil.chain_head "t1" _ _ hlast
  have hregistered : factFingerprint documentDigests (reading "low" "a") ∈
      (rowsState (entityLines "fact:cell" log)).fingerprints := by
    rw [hlines]
    exact grown_nil.facts_registered (fun _ hv => hv) _ (by simp)
  have hgrown : Grown documentDigests (entityLines "fact:cell" log) := grown_batch grown_nil
  refine ⟨fun e hne => ?_, by simp [DistinctTimes], ?_⟩
  · rw [entityLines_batch] at hne ⊢
    exact grown_nil.chain_open (fun h => absurd rfl h) _ _ hne
  · rintro ⟨k, -, hk⟩
    rw [registryHead_rows, entityLines_stale hgrown, hlines] at hk
    · have hsame := congrArg (Option.map RegistryHead.fingerprint) (hhead.symm.trans hk)
      rw [Option.map_some, Option.map_some, Option.some_inj] at hsame
      have hvalue : factFingerprint documentDigests (reading "high" "b") =
          factFingerprint documentDigests (reading "low" "a") := by
        rw [← hr]
        exact hsame
      rw [reading_fingerprint] at hvalue
      exact absurd hvalue (by decide)
    · intro f hf _
      rw [List.mem_singleton.mp hf, registryState_rows]
      refine ⟨"b", ?_, by decide, by decide, hregistered⟩
      have hb : (rowsState (entityLines "fact:cell" log)).headObservedAt = some "b" := by
        rw [hlines]
        exact hobserved.trans (congrArg some (by rw [hr]; rfl))
      rw [hb]
      decide

end AgenticDynamics.Control
