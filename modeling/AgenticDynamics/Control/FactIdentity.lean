import AgenticDynamics.Control.FactRegistration

/-!
# The ids that a batch gives to its facts

A derivation tells for each fact the version that it is registered under. A fact that the guard
stops is told the head it met, whose value is that of the last fact before it that was let through.
-/

namespace AgenticDynamics.Control

open Python StableSort Knowledge

variable (digests : FactDigests)

/-- The content that the id digests has this fingerprint. -/
def Worth (e k fingerprint : String) : Prop :=
  ∃ c p, k = digests.knowledgeId e c p ∧ digests.fingerprint c.toFactValue = fingerprint

/-- The rows of an entity are lines of its versions: each id digests a content, whose fingerprint
the line carries if it carries any. -/
def Labelled (e : String) (rows : List Row) : Prop :=
  ∀ row ∈ rows, ∃ c p, row.kid = digests.knowledgeId e c p ∧
    (fingerprintFromReason reasonMark row.reason ≠ "" →
      fingerprintFromReason reasonMark row.reason = digests.fingerprint c.toFactValue)

/-- Every fact is given an id, and the id is that of a version on the log or of the batch which has
the value of the fact. -/
def IdentityTrue (log : List Line) (facts : List ObservedFact) : Prop :=
  (∀ f ∈ facts, ∃ k, (f, k) ∈ (deriveFactRecords digests log facts).identity) ∧
    ∀ entry ∈ (deriveFactRecords digests log facts).identity,
      Worth digests entry.1.factEntityId entry.2 (factFingerprint digests entry.1) ∧
        (entry.2 ∈ (entityLines entry.1.factEntityId log).map Row.kid ∨
          ∃ r ∈ (deriveFactRecords digests log facts).records, r.knowledgeId digests = entry.2)

/-- The value in front of a fact: that of the last fact before it that the guard lets through, or,
without one, the value of the head on the log. -/
def Standing (log : List Line) (before : List ObservedFact) (e fingerprint : String) : Prop :=
  match ((before.filter fun g => g.factEntityId = e).filter fun g =>
      ¬ Stale digests (registryState e log) g).getLast? with
  | some g => factFingerprint digests g = fingerprint
  | none   => ∃ head ∈ registryHead e reasonMark (some log),
      Worth digests e head.knowledgeId fingerprint

variable {digests} {log : List Line} {e k : String} {f : ObservedFact}

lemma worth_version {r : FactRecord} {fingerprint : String} :
    Worth digests r.fact.factEntityId (r.knowledgeId digests) fingerprint ↔
      factFingerprint digests r.fact = fingerprint := by
  constructor
  · rintro ⟨c, p, h, rfl⟩
    obtain ⟨-, hc, -⟩ := digests.knowledgeId_injective h
    rw [factFingerprint, hc]
  · intro h
    exact ⟨_, _, rfl, h⟩

lemma Worth.unique {fp fp' : String} (h : Worth digests e k fp) :
    Worth digests e k fp' ↔ fp = fp' := by
  obtain ⟨c, p, rfl, rfl⟩ := h
  constructor
  · rintro ⟨c', p', h, rfl⟩
    obtain ⟨-, rfl, -⟩ := digests.knowledgeId_injective h
    rfl
  · rintro rfl
    exact ⟨c, p, rfl, rfl⟩

lemma Labelled.head {rows : List Row} (h : Labelled digests e rows) {head : RegistryHead}
    (hhead : rowsHead rows = some head) :
    head.knowledgeId ∈ rows.map Row.kid ∧
      (head.fingerprint ≠ "" → Worth digests e head.knowledgeId head.fingerprint) := by
  obtain ⟨k, hk, rfl⟩ := Option.map_eq_some_iff.mp hhead
  have hmem := (mem_openVersions.mp (List.mem_of_getLast? hk)).1
  refine ⟨hmem, fun hne => ?_⟩
  cases hlast : lastLine rows k with
  | none => simp [hlast, fingerprintFromReason, startsWith, reasonMark] at hne
  | some row =>
    obtain ⟨hrow, hkid⟩ := List.mem_filter.mp (List.mem_of_getLast? hlast)
    obtain ⟨c, p, hid, hcarries⟩ := h row hrow
    simp only [hlast, Option.bind_some] at hne ⊢
    exact ⟨c, p, (of_decide_eq_true hkid).symm.trans hid, (hcarries hne).symm⟩

/-! ### The run over the facts -/

variable {seen : List ObservedFact} {d : Derivation}

lemma standing_concat {fp : String} : Standing digests log (seen ++ [f]) e fp ↔
    if f.factEntityId = e ∧ ¬ Stale digests (registryState e log) f then
      factFingerprint digests f = fp
    else Standing digests log seen e fp := by
  simp only [Standing, List.filter_append]
  by_cases hentity : f.factEntityId = e
  · by_cases hstale : Stale digests (registryState e log) f <;> simp [hentity, hstale]
  · simp [hentity]

/-- The id is that of a version on the log or of the batch. -/
def Listed (digests : FactDigests) (log : List Line) (d : Derivation) (e k : String) : Prop :=
  k ∈ (entityLines e log).map Row.kid ∨ ∃ r ∈ d.records, r.knowledgeId digests = k

/-- What the head of an entity is worth after some facts. -/
structure HeadTracks (digests : FactDigests) (log : List Line) (seen : List ObservedFact)
    (d : Derivation) (e : String) (head : RegistryHead) : Prop where
  worth : ∀ fp, Worth digests e head.knowledgeId fp ↔ Standing digests log seen e fp
  carries : head.fingerprint ≠ "" → Worth digests e head.knowledgeId head.fingerprint
  listed : Listed digests log d e head.knowledgeId

structure Followed (digests : FactDigests) (log : List Line) (seen : List ObservedFact)
    (d : Derivation) : Prop where
  facts : d.identity.map Prod.fst = seen
  heads : ∀ e head, d.head log e = some head → HeadTracks digests log seen d e head
  fresh : ∀ e, d.head log e = none → ∀ f, ¬ Stale digests (registryState e log) f
  listed : ∀ entry ∈ d.identity, Listed digests log d entry.1.factEntityId entry.2

lemma Followed.emit (h : Followed digests log seen d) {r : FactRecord}
    (hr : ¬ Stale digests (registryState r.fact.factEntityId log) r.fact) :
    Followed digests log (seen ++ [r.fact]) (d.emit digests r) := by
  have hlisted {e k : String} (h : Listed digests log d e k) :
      Listed digests log (d.emit digests r) e k :=
    h.imp_right fun ⟨r', hr', hk⟩ => ⟨r', List.mem_append_left _ hr', hk⟩
  have hown : Listed digests log (d.emit digests r) r.fact.factEntityId (r.knowledgeId digests) :=
    .inr ⟨r, List.mem_append_right _ List.mem_cons_self, rfl⟩
  refine ⟨by simp [Derivation.emit, h.facts], fun e head hhead => ?_, fun e hnone => ?_, ?_⟩
  · by_cases he : r.fact.factEntityId = e
    · subst he
      obtain rfl : r.head digests = head := by
        simpa [Derivation.head, Derivation.emit, Dict.get?_set] using hhead
      exact ⟨fun fp => by rw [standing_concat, if_pos ⟨rfl, hr⟩]; exact worth_version,
        fun _ => worth_version.mpr rfl, hown⟩
    · have hold : d.head log e = some head := by
        simpa [Derivation.head, Derivation.emit, Dict.get?_set, he] using hhead
      obtain ⟨hworth, hcarries, hl⟩ := h.heads e head hold
      exact ⟨fun fp => by rw [hworth, standing_concat, if_neg (by simp [he])], hcarries, hlisted hl⟩
  · by_cases he : r.fact.factEntityId = e
    · subst he
      simp [Derivation.head, Derivation.emit, Dict.get?_set] at hnone
    · exact h.fresh e (by simpa [Derivation.head, Derivation.emit, Dict.get?_set, he] using hnone)
  · intro entry hentry
    rcases List.mem_append.mp hentry with hentry | hentry
    · exact hlisted (h.listed entry hentry)
    · obtain rfl := List.mem_singleton.mp hentry
      exact hown

lemma Followed.keep (h : Followed digests log seen d) {head : RegistryHead}
    (hhead : d.head log f.factEntityId = some head)
    (hf : ¬ Stale digests (registryState f.factEntityId log) f →
      Worth digests f.factEntityId head.knowledgeId (factFingerprint digests f)) :
    Followed digests log (seen ++ [f]) (d.keep f head) := by
  have hsame : ∀ e, (d.keep f head).head log e = d.head log e := by
    intro e
    by_cases he : f.factEntityId = e
    · subst he
      rw [hhead]
      simp [Derivation.head, Derivation.keep, Dict.get?_set]
    · simp [Derivation.head, Derivation.keep, Dict.get?_set, he]
  have htracks := h.heads _ _ hhead
  refine ⟨by simp [Derivation.keep, h.facts], fun e head' hhead' => ?_, fun e hnone => ?_, ?_⟩
  · rw [hsame] at hhead'
    obtain ⟨hworth, hcarries, hl⟩ := h.heads e head' hhead'
    refine ⟨fun fp => ?_, hcarries, hl⟩
    rw [standing_concat]
    split_ifs with hlet
    · obtain ⟨rfl, hfresh⟩ := hlet
      obtain rfl : head = head' := Option.some.inj (hhead.symm.trans hhead')
      exact (hf hfresh).unique
    · exact hworth fp
  · exact h.fresh e (hsame e ▸ hnone)
  · intro entry hentry
    rcases List.mem_append.mp hentry with hentry | hentry
    · exact h.listed entry hentry
    · obtain rfl := List.mem_singleton.mp hentry
      exact htracks.listed

lemma Followed.step (h : Followed digests log seen d) (f : ObservedFact) :
    Followed digests log (seen ++ [f]) (d.step digests log f) ∧
      ∃ k, (d.step digests log f).identity = d.identity ++ [(f, k)] ∧
        (Worth digests f.factEntityId k (factFingerprint digests f) ↔
          (Stale digests (registryState f.factEntityId log) f →
            Standing digests log seen f.factEntityId (factFingerprint digests f))) := by
  cases hhead : d.head log f.factEntityId with
  | none =>
    have hstep : d.step digests log f = d.emit digests ⟨f, none⟩ := by
      simp [Derivation.step, hhead, verdict]
    have hfresh := h.fresh _ hhead f
    rw [hstep]
    exact ⟨h.emit (r := ⟨f, none⟩) hfresh, _, rfl,
      iff_of_true (worth_version (r := ⟨f, none⟩).mpr rfl) fun hs => absurd hs hfresh⟩
  | some head =>
    have htracks := h.heads _ _ hhead
    cases hverdict : verdict digests (registryState f.factEntityId log) (some head) f with
    | some r =>
      have hr := verdict_fact hverdict
      subst hr
      have hfresh : ¬ Stale digests (registryState r.fact.factEntityId log) r.fact := by
        simp only [verdict] at hverdict
        split_ifs at hverdict with _ _ hs
        exact hs
      rw [Derivation.step, hhead, hverdict]
      exact ⟨h.emit hfresh, _, rfl, iff_of_true (worth_version.mpr rfl) fun hs => absurd hs hfresh⟩
    | none =>
      have hsame : ¬ Stale digests (registryState f.factEntityId log) f →
          Worth digests f.factEntityId head.knowledgeId (factFingerprint digests f) := by
        intro hfresh
        simp only [verdict] at hverdict
        split_ifs at hverdict with hfp hid
        · rw [← hfp.2]
          exact htracks.carries hfp.1
        · rw [hid]
          exact worth_version (r := ⟨f, none⟩).mpr rfl
      rw [Derivation.step, hhead, hverdict]
      refine ⟨h.keep hhead hsame, _, rfl, ?_⟩
      by_cases hs : Stale digests (registryState f.factEntityId log) f
      · simp only [hs, true_imp_iff]
        exact htracks.worth _
      · exact iff_of_true (hsame hs) fun h => absurd h hs

lemma Followed.run (h : Followed digests log seen d) (facts : List ObservedFact) :
    Followed digests log (seen ++ facts) (facts.foldl (Derivation.step digests log) d) ∧
      ((∀ entry ∈ (facts.foldl (Derivation.step digests log) d).identity,
          Worth digests entry.1.factEntityId entry.2 (factFingerprint digests entry.1)) ↔
        (∀ entry ∈ d.identity,
          Worth digests entry.1.factEntityId entry.2 (factFingerprint digests entry.1)) ∧
        ∀ before f after, facts = before ++ f :: after →
          Stale digests (registryState f.factEntityId log) f →
            Standing digests log (seen ++ before) f.factEntityId (factFingerprint digests f)) := by
  induction facts generalizing seen d with
  | nil => exact ⟨by simpa using h, by simp⟩
  | cons f facts ih =>
    obtain ⟨hstep, k, hidentity, htrue⟩ := h.step f
    obtain ⟨hrun, hall⟩ := ih hstep
    refine ⟨by simpa using hrun, ?_⟩
    rw [List.foldl_cons, hall, hidentity, List.forall_mem_append, List.forall_mem_singleton, htrue,
      and_assoc]
    refine and_congr_right fun _ => ⟨fun ⟨hfirst, hrest⟩ before g after hsplit => ?_, fun hsplit => ?_⟩
    · cases before with
      | nil =>
        cases hsplit
        simpa using hfirst
      | cons f' before =>
        cases hsplit
        simpa using hrest before g after rfl
    · refine ⟨by simpa using hsplit [] f facts rfl, fun before g after hrest => ?_⟩
      simpa using hsplit (f :: before) g after (by rw [hrest]; rfl)

lemma followed_start (hlog : ∀ e, Labelled digests e (entityLines e log)) :
    Followed digests log [] {} := by
  refine ⟨rfl, fun e head hhead => ?_, fun e hnone f => ?_, by simp⟩
  · have hregistry : registryHead e reasonMark (some log) = some head := hhead
    obtain ⟨hlisted, hcarries⟩ := (hlog e).head (registryHead_rows e log ▸ hregistry)
    exact ⟨fun fp => by simp [Standing, hregistry], hcarries, .inl hlisted⟩
  · rw [registryState_rows]
    exact rowsHead_none (registryHead_rows e log ▸ hnone) f

/-- A log of two readings of one cell, the later of which replaced the other. -/
def replacedLog : List Line :=
  register documentDigests "t1" [] [⟨reading "low" "a", none⟩,
    ⟨reading "high" "b", some (FactRecord.knowledgeId documentDigests ⟨reading "low" "a", none⟩)⟩]

end AgenticDynamics.Control
