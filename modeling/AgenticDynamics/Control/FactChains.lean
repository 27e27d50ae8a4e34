import AgenticDynamics.Control.FactIngestion

/-!
# Chains of fact versions

What a lookup finds depends on the rows of the entity alone. A log has grown by registration when
a version is only mentioned where its predecessor is closed; a record that is registered in front
of the head of such a log closes it, is the one head afterwards, and the log has grown again.
-/

namespace AgenticDynamics.Control

open Python StableSort Knowledge

variable {digests : FactDigests} {e : String} {rows : List Row} {k : String}

/-! ### What the rows of an entity say -/

/-- A row closes the version: it names it as its predecessor, or marks it. -/
def Closed (rows : List Row) (k : String) : Prop :=
  ∃ r ∈ rows, truthy r.supersedes = some k ∨ (r.lifecycleState = some "superseded" ∧ r.kid = k)

instance (rows : List Row) (k : String) : Decidable (Closed rows k) :=
  inferInstanceAs (Decidable (∃ r ∈ rows, _))

/-- The versions that no row closes, in the order of their first rows. -/
def openVersions (rows : List Row) : List String :=
  (firsts (rows.map Row.kid)).filter fun k => ¬ Closed rows k

def lastLine (rows : List Row) (k : String) : Option Row :=
  (rows.filter fun r => r.kid = k).getLast?

def rowsHead (rows : List Row) : Option RegistryHead :=
  (openVersions rows).getLast?.map fun k =>
    ⟨k, fingerprintFromReason reasonMark ((lastLine rows k).bind Row.reason)⟩

def rowsState (rows : List Row) : RegistryState where
  headObservedAt := (openVersions rows).getLast?.bind fun k => (lastLine rows k).bind Row.observedAt
  fingerprints := rows.filterMap rowFingerprint

/-- What a pass over the log has found when it has seen these rows, with the last of each. -/
structure Scanned (rows : List Row) (scan : HeadScan) : Prop extends Knowledge.Found rows scan where
  last : ∀ k, scan.lines.get? k = lastLine rows k

lemma HeadScan.step_row {scan : HeadScan} {r : Row} (hentity : r.entityId = some e)
    (hkid : r.kid ≠ "") : (HeadScan.step e scan (.row r)).lines = scan.lines.set r.kid r := by
  have htruthy : truthy r.knowledgeId = some r.kid := by
    cases hk : r.knowledgeId with
    | none => simp [Row.kid, hk] at hkid
    | some k => simpa [truthy, Row.kid, hk] using hkid
  simp only [HeadScan.step, if_pos hentity, htruthy]

lemma HeadScan.step_other {scan : HeadScan} {r : Row}
    (h : ¬ (r.entityId = some e ∧ r.kid ≠ "")) : HeadScan.step e scan (.row r) = scan := by
  by_cases hentity : r.entityId = some e
  · have hkid : r.kid = "" := by
      by_contra hne
      exact h ⟨hentity, hne⟩
    have hnone : truthy r.knowledgeId = none := by
      cases hk : r.knowledgeId with
      | none => rfl
      | some k =>
        have hempty : k = "" := by simpa [Row.kid, hk] using hkid
        rw [hempty]
        rfl
    simp [HeadScan.step, hentity, hnone]
  · simp [HeadScan.step, hentity]

lemma lastLine_concat (rows : List Row) (r : Row) (k : String) :
    lastLine (rows ++ [r]) k = if r.kid = k then some r else lastLine rows k := by
  rw [lastLine, List.filter_append]
  by_cases h : r.kid = k
  · rw [if_pos h, List.filter_cons_of_pos (by simpa using h)]
    simp
  · rw [if_neg h, List.filter_cons_of_neg (by simpa using h)]
    simp [lastLine]

lemma scanned_log {log : List Line} {seen : List Row} {scan : HeadScan} (h : Scanned seen scan) :
    Scanned (seen ++ entityLines e log) (log.foldl (HeadScan.step e) scan) := by
  induction log generalizing seen scan with
  | nil => simpa [entityLines] using h
  | cons line log ih =>
    rw [List.foldl_cons]
    cases line with
    | row r =>
      by_cases hread : r.entityId = some e ∧ r.kid ≠ ""
      · have hfound := h.toFound.step hread.1 hread.2
        have hscanned : Scanned (seen ++ [r]) (HeadScan.step e scan (.row r)) :=
          ⟨hfound, fun k => by
            rw [HeadScan.step_row hread.1 hread.2, Dict.get?_set, lastLine_concat, h.last]⟩
        have hnext := ih hscanned
        have hlines : entityLines e (.row r :: log) = r :: entityLines e log := by
          simp [entityLines, hread]
        rw [hlines]
        simpa using hnext
      · have hlines : entityLines e (.row r :: log) = entityLines e log := by
          rw [entityLines, List.filterMap_cons]
          simp only [if_neg hread]
          rfl
        rw [HeadScan.step_other hread, hlines]
        exact ih h
    | blank => exact ih h
    | damaged => exact ih h
    | other t => exact ih h

lemma scanned_entityLines (e : String) (log : List Line) :
    Scanned (entityLines e log) (log.foldl (HeadScan.step e) {}) := by
  have hnil : Scanned [] {} := ⟨found_nil, fun _ => rfl⟩
  exact scanned_log hnil

lemma Scanned.head {scan : HeadScan} (h : Scanned rows scan) :
    (scan.order.reverse.find? fun k => k ∉ scan.superseded) = (openVersions rows).getLast? := by
  rw [← List.head?_filter, List.filter_reverse, List.head?_reverse, openVersions, h.order]
  congr 1
  refine List.filter_congr fun k _ => ?_
  rw [decide_eq_decide, h.superseded, Closed]

lemma registryHead_rows (e : String) (log : List Line) :
    registryHead e reasonMark (some log) = rowsHead (entityLines e log) := by
  have h := scanned_entityLines e log
  rw [registryHead, rowsHead, ← h.head]
  simp only [h.last]

lemma registryState_rows (e : String) (log : List Line) :
    registryState e log = rowsState (entityLines e log) := by
  have h := scanned_entityLines e log
  rw [registryState, rowsState, ← h.head]
  simp only [h.last]

/-! ### Registering one record -/

variable {indexedAt : String} {r : FactRecord}

/-- The line of a record, as it is registered. -/
abbrev FactRecord.current (digests : FactDigests) (indexedAt : String) (r : FactRecord) : Row :=
  r.line digests indexedAt "current" (factReason digests r)

lemma recordRows_first (h : r.supersedes = none) :
    recordRows digests indexedAt r = [r.current digests indexedAt] := by
  simp [recordRows, registryLinesFor, factOperation, h, truthy]

lemma recordRows_next {p : String} (h : r.supersedes = some p) (hp : p ≠ "") :
    recordRows digests indexedAt r = [r.current digests indexedAt, r.closing indexedAt p] := by
  simp [recordRows, registryLinesFor, factOperation, h, truthy, hp, Option.filter]

lemma closed_append {new : List Row} : Closed (rows ++ new) k ↔ Closed rows k ∨ Closed new k := by
  simp only [Closed, List.mem_append, or_and_right, exists_or]

def Mentioned (rows : List Row) (k : String) : Prop := k ∈ rows.map Row.kid ∨ Closed rows k

/-- A version is only mentioned where its predecessor is closed, an open version carries its
fingerprint, and where there are rows there is an open version. -/
structure Grown (digests : FactDigests) (rows : List Row) : Prop where
  ids : ∀ r ∈ rows, r.kid ≠ ""
  head : rows ≠ [] → openVersions rows ≠ []
  linked : ∀ e c p, Mentioned rows (digests.knowledgeId e c (some p)) → Closed rows p
  annotated : ∀ e c p, digests.knowledgeId e c p ∈ openVersions rows →
    fingerprintFromReason reasonMark
      ((lastLine rows (digests.knowledgeId e c p)).bind Row.reason) =
        digests.fingerprint c.toFactValue

/-- The record was derived in front of the head of these rows. -/
def Follows (rows : List Row) (r : FactRecord) : Prop :=
  r.supersedes = (openVersions rows).getLast?

lemma mem_openVersions : k ∈ openVersions rows ↔ k ∈ rows.map Row.kid ∧ ¬ Closed rows k := by
  simp [openVersions]

lemma Grown.fresh (h : Grown digests rows) (hr : Follows rows r) :
    ¬ Mentioned rows (r.knowledgeId digests) := by
  intro hmentioned
  cases hp : r.supersedes with
  | none =>
    have hnil : rows = [] := by
      by_contra hne
      rw [Follows, hp, eq_comm, List.getLast?_eq_none_iff] at hr
      exact h.head hne hr
    rw [hnil] at hmentioned
    rcases hmentioned with hkid | ⟨r', hr', -⟩
    · exact absurd hkid List.not_mem_nil
    · exact absurd hr' List.not_mem_nil
  | some p =>
    rw [Follows, hp] at hr
    have hopen := mem_openVersions.mp (List.mem_of_getLast? hr.symm)
    rw [FactRecord.knowledgeId, hp] at hmentioned
    exact hopen.2 (h.linked _ _ _ hmentioned)

lemma Grown.predecessor (h : Grown digests rows) (hr : Follows rows r) {p : String}
    (hp : r.supersedes = some p) : p ∈ rows.map Row.kid ∧ p ≠ "" := by
  rw [Follows, hp] at hr
  have hkid := (mem_openVersions.mp (List.mem_of_getLast? hr.symm)).1
  obtain ⟨r', hr', rfl⟩ := List.mem_map.mp hkid
  exact ⟨hkid, h.ids r' hr'⟩

lemma Grown.recordRows_eq (h : Grown digests rows) (hr : Follows rows r) :
    recordRows digests indexedAt r = r.current digests indexedAt ::
      (r.supersedes.map fun p => r.closing indexedAt p).toList := by
  cases hp : r.supersedes with
  | none => exact recordRows_first hp
  | some p => exact recordRows_next hp (h.predecessor hr hp).2

lemma Grown.closed_register (h : Grown digests rows) (hr : Follows rows r) :
    Closed (rows ++ recordRows digests indexedAt r) k ↔
      Closed rows k ∨ r.supersedes = some k := by
  rw [closed_append, h.recordRows_eq hr]
  refine or_congr_right ?_
  cases hp : r.supersedes with
  | none => simp [Closed, FactRecord.line, truthy, hp]
  | some p =>
    have hne := (h.predecessor hr hp).2
    simp [Closed, FactRecord.line, FactRecord.closing, truthy, hp, hne, Option.filter, Row.kid]

lemma Grown.openVersions_register (h : Grown digests rows) (hr : Follows rows r) :
    openVersions (rows ++ recordRows digests indexedAt r) =
      (openVersions rows).filter (fun k => r.supersedes ≠ some k) ++ [r.knowledgeId digests] := by
  have hfresh := h.fresh hr
  have hnew : r.knowledgeId digests ∉ firsts (rows.map Row.kid) := by
    rw [mem_firsts]
    exact fun hkid => hfresh (.inl hkid)
  have hkids : firsts ((rows ++ recordRows digests indexedAt r).map Row.kid) =
      firsts (rows.map Row.kid) ++ [r.knowledgeId digests] := by
    have hline : (r.current digests indexedAt).kid = r.knowledgeId digests := rfl
    rw [h.recordRows_eq hr]
    cases hp : r.supersedes with
    | none =>
      rw [List.map_append]
      simp only [Option.map_none, Option.toList_none, List.map_cons, List.map_nil, hline]
      rw [firsts_concat, if_neg hnew]
    | some p =>
      have hpred : p ∈ firsts (rows.map Row.kid) ++ [r.knowledgeId digests] :=
        List.mem_append_left _ (mem_firsts.mpr (h.predecessor hr hp).1)
      have hclosing : (r.closing indexedAt p).kid = p := rfl
      have hsplit : (rows ++ [r.current digests indexedAt, r.closing indexedAt p]).map Row.kid =
          (rows.map Row.kid ++ [r.knowledgeId digests]) ++ [p] := by
        simp [hline, hclosing]
      simp only [Option.map_some, Option.toList_some]
      rw [hsplit, firsts_concat, firsts_concat, if_neg hnew, if_pos hpred]
  have hlast : ¬ Closed (rows ++ recordRows digests indexedAt r) (r.knowledgeId digests) := by
    rw [h.closed_register hr]
    rintro (hclosed | hp)
    · exact hfresh (.inr hclosed)
    · exact hfresh (.inl (h.predecessor hr hp).1)
  rw [openVersions, hkids, List.filter_append, List.filter_cons_of_pos (by simpa using hlast),
    List.filter_nil, openVersions, List.filter_filter]
  congr 1
  refine List.filter_congr fun k _ => ?_
  rw [← Bool.decide_and, decide_eq_decide, h.closed_register hr]
  tauto

lemma Grown.lastLine_register (h : Grown digests rows) (hr : Follows rows r) :
    lastLine (rows ++ recordRows digests indexedAt r) (r.knowledgeId digests) =
      some (r.current digests indexedAt) := by
  have hline : (r.current digests indexedAt).kid = r.knowledgeId digests := rfl
  rw [h.recordRows_eq hr]
  cases hp : r.supersedes with
  | none => simp [lastLine_concat, hline]
  | some p =>
    have hne : (r.closing indexedAt p).kid ≠ r.knowledgeId digests := by
      intro heq
      have hpred := (h.predecessor hr hp).1
      rw [show p = r.knowledgeId digests from heq] at hpred
      exact h.fresh hr (.inl hpred)
    have hsplit : rows ++ r.current digests indexedAt :: [r.closing indexedAt p] =
        (rows ++ [r.current digests indexedAt]) ++ [r.closing indexedAt p] := by simp
    simp only [Option.map_some, Option.toList_some]
    rw [hsplit, lastLine_concat, if_neg hne, lastLine_concat, if_pos hline]

lemma Grown.lastLine_other (h : Grown digests rows) (hr : Follows rows r)
    (hk : k ≠ r.knowledgeId digests) (hp : r.supersedes ≠ some k) :
    lastLine (rows ++ recordRows digests indexedAt r) k = lastLine rows k := by
  have hline : (r.current digests indexedAt).kid ≠ k := fun heq => hk heq.symm
  rw [h.recordRows_eq hr]
  cases hsup : r.supersedes with
  | none => simp [lastLine_concat, hline]
  | some p =>
    have hclosing : (r.closing indexedAt p).kid ≠ k := by
      intro heq
      exact hp (by rw [hsup]; exact congrArg some heq)
    have hsplit : rows ++ r.current digests indexedAt :: [r.closing indexedAt p] =
        (rows ++ [r.current digests indexedAt]) ++ [r.closing indexedAt p] := by simp
    simp only [Option.map_some, Option.toList_some]
    rw [hsplit, lastLine_concat, if_neg hclosing, lastLine_concat, if_neg hline]

lemma drop_reasonMark (s : String) :
    startsWith (reasonMark ++ s) reasonMark = true ∧
      String.ofList ((reasonMark ++ s).toList.drop reasonMark.toList.length) = s := by
  rw [startsWith, String.toList_append]
  constructor
  · rw [List.isPrefixOf_iff_prefix]
    exact List.prefix_append _ _
  · rw [List.drop_left, String.ofList_toList]

lemma fingerprint_current :
    fingerprintFromReason reasonMark (r.current digests indexedAt).reason =
      factFingerprint digests r.fact := by
  have hmark := drop_reasonMark (factFingerprint digests r.fact)
  show fingerprintFromReason reasonMark (some (reasonMark ++ factFingerprint digests r.fact)) = _
  rw [fingerprintFromReason]
  simp only [Option.getD_some, hmark.1, if_true]
  exact hmark.2

lemma rowFingerprint_current :
    rowFingerprint (r.current digests indexedAt) = some (factFingerprint digests r.fact) := by
  have hmark := drop_reasonMark (factFingerprint digests r.fact)
  have hreason : (r.current digests indexedAt).reason.getD "" =
      reasonMark ++ factFingerprint digests r.fact := rfl
  rw [rowFingerprint, hreason]
  simp only [hmark.1, if_true]
  exact congrArg some hmark.2

lemma rowFingerprint_closing {p : String} : rowFingerprint (r.closing indexedAt p) = none := rfl

lemma Grown.register (h : Grown digests rows) (hr : Follows rows r) :
    Grown digests (rows ++ recordRows digests indexedAt r) where
  ids := by
    intro r' hr'
    rw [h.recordRows_eq hr] at hr'
    rcases List.mem_append.mp hr' with hr' | hr'
    · exact h.ids r' hr'
    · rcases List.mem_cons.mp hr' with rfl | hr'
      · exact digests.knowledgeId_ne_empty _ _ _
      · rw [Option.mem_toList, Option.map_eq_some_iff] at hr'
        obtain ⟨p, hp, rfl⟩ := hr'
        exact (h.predecessor hr hp).2
  head := by
    intro _
    rw [h.openVersions_register hr]
    exact List.append_ne_nil_of_right_ne_nil _ (List.cons_ne_nil _ _)
  linked := by
    intro e c p hmentioned
    rw [h.closed_register hr]
    have hcases : Mentioned rows (digests.knowledgeId e c (some p)) ∨
        digests.knowledgeId e c (some p) = r.knowledgeId digests := by
      rcases hmentioned with hkid | hclosed
      · rw [h.recordRows_eq hr, List.map_append, List.mem_append, List.map_cons,
          List.mem_cons] at hkid
        rcases hkid with hkid | hkid | hkid
        · exact .inl (.inl hkid)
        · exact .inr hkid
        · obtain ⟨row, hrow, hrowkid⟩ := List.mem_map.mp hkid
          rw [Option.mem_toList, Option.map_eq_some_iff] at hrow
          obtain ⟨q, hq, rfl⟩ := hrow
          have hq' : q = digests.knowledgeId e c (some p) := hrowkid
          exact .inl (.inl (hq' ▸ (h.predecessor hr hq).1))
      · rcases (h.closed_register hr).mp hclosed with hclosed | hsup
        · exact .inl (.inr hclosed)
        · exact .inl (.inl (h.predecessor hr hsup).1)
    rcases hcases with hold | hnew
    · exact .inl (h.linked e c p hold)
    · exact .inr (digests.knowledgeId_injective hnew).2.2.symm
  annotated := by
    intro e c p hopen
    rw [h.openVersions_register hr, List.mem_append, List.mem_singleton] at hopen
    rcases hopen with hopen | hnew
    · obtain ⟨hold, hsup⟩ := List.mem_filter.mp hopen
      have hne : digests.knowledgeId e c p ≠ r.knowledgeId digests := fun heq =>
        h.fresh hr (.inl (heq ▸ (mem_openVersions.mp hold).1))
      rw [h.lastLine_other hr hne (by simpa using hsup)]
      exact h.annotated e c p hold
    · obtain ⟨-, hc, -⟩ := digests.knowledgeId_injective hnew
      rw [hnew, h.lastLine_register hr, hc]
      exact fingerprint_current

lemma Grown.rowsHead_register (h : Grown digests rows) (hr : Follows rows r) (indexedAt : String) :
    rowsHead (rows ++ recordRows digests indexedAt r) = some (r.head digests) := by
  rw [rowsHead, h.openVersions_register hr, List.getLast?_concat, Option.map_some,
    h.lastLine_register hr, Option.bind_some, fingerprint_current]
  rfl

lemma Grown.rowsState_register (h : Grown digests rows) (hr : Follows rows r) (indexedAt : String) :
    rowsState (rows ++ recordRows digests indexedAt r) =
      ⟨some r.fact.observedAt,
        (rowsState rows).fingerprints ++ [factFingerprint digests r.fact]⟩ := by
  have hlast : (openVersions (rows ++ recordRows digests indexedAt r)).getLast? =
      some (r.knowledgeId digests) := by
    rw [h.openVersions_register hr, List.getLast?_concat]
  have hfingerprints : (recordRows digests indexedAt r).filterMap rowFingerprint =
      [factFingerprint digests r.fact] := by
    rw [h.recordRows_eq hr, List.filterMap_cons, rowFingerprint_current]
    cases r.supersedes <;> simp [rowFingerprint_closing]
  rw [rowsState, hlast, List.filterMap_append, hfingerprints, rowsState, Option.bind_some,
    h.lastLine_register hr]
  rfl

/-! ### Registering a chain -/

/-- The rows of a batch behind those of the log. -/
def rowsAfter (digests : FactDigests) (indexedAt : String) (rows : List Row)
    (records : List FactRecord) : List Row :=
  rows ++ records.flatMap (recordRows digests indexedAt)

lemma rowsAfter_cons (records : List FactRecord) :
    rowsAfter digests indexedAt rows (r :: records) =
      rowsAfter digests indexedAt (rows ++ recordRows digests indexedAt r) records := by
  simp [rowsAfter]

lemma verdict_follows {state : RegistryState} {f : ObservedFact}
    (h : verdict digests state (rowsHead rows) f = some r) : Follows rows r := by
  rw [Follows]
  cases hlast : (openVersions rows).getLast? with
  | none =>
    rw [rowsHead, hlast] at h
    cases h
    rfl
  | some k =>
    rw [rowsHead, hlast] at h
    simp only [Option.map_some, verdict] at h
    split_ifs at h
    cases h
    rfl

lemma Grown.chain_grown (h : Grown digests rows) (state : RegistryState) (facts : List ObservedFact) :
    Grown digests
      (rowsAfter digests indexedAt rows (chain digests state (rowsHead rows) facts)) := by
  induction facts generalizing rows with
  | nil => simpa [chain, rowsAfter] using h
  | cons f fs ih =>
    rw [chain]
    cases hverdict : verdict digests state (rowsHead rows) f with
    | none => exact ih h
    | some r =>
      have hr := verdict_follows hverdict
      dsimp only
      have hhead := h.rowsHead_register hr indexedAt
      rw [rowsAfter_cons, ← hhead]
      exact ih (h.register hr)

lemma Grown.chain_head (h : Grown digests rows) (indexedAt : String)
    (state : RegistryState) (facts : List ObservedFact) {g : FactRecord}
    (hg : (chain digests state (rowsHead rows) facts).getLast? = some g) :
    rowsHead (rowsAfter digests indexedAt rows (chain digests state (rowsHead rows) facts)) =
        some (g.head digests) ∧
      (rowsState (rowsAfter digests indexedAt rows
        (chain digests state (rowsHead rows) facts))).headObservedAt = some g.fact.observedAt := by
  induction facts generalizing rows with
  | nil => cases hg
  | cons f fs ih =>
    rw [chain] at hg ⊢
    cases hverdict : verdict digests state (rowsHead rows) f with
    | none =>
      rw [hverdict] at hg
      exact ih h hg
    | some r =>
      have hr := verdict_follows hverdict
      have hhead := h.rowsHead_register hr indexedAt
      have hstate := h.rowsState_register hr indexedAt
      rw [hverdict] at hg
      dsimp only at hg ⊢
      rw [rowsAfter_cons]
      rw [← hhead] at hg ⊢
      cases hrest : chain digests state
          (rowsHead (rows ++ recordRows digests indexedAt r)) fs with
      | nil =>
        rw [hrest] at hg
        cases hg
        rw [rowsAfter, List.flatMap_nil, List.append_nil, hstate]
        exact ⟨hhead, rfl⟩
      | cons r' rs =>
        rw [hrest, List.getLast?_cons_cons, ← hrest] at hg
        rw [← hrest]
        exact ih (h.register hr) hg

lemma Grown.chain_fingerprints (h : Grown digests rows) (state : RegistryState)
    (facts : List ObservedFact) :
    (rowsState (rowsAfter digests indexedAt rows
        (chain digests state (rowsHead rows) facts))).fingerprints =
      (rowsState rows).fingerprints ++ (chain digests state (rowsHead rows) facts).map
        fun r => factFingerprint digests r.fact := by
  induction facts generalizing rows with
  | nil => simp [chain, rowsAfter]
  | cons f fs ih =>
    rw [chain]
    cases hverdict : verdict digests state (rowsHead rows) f with
    | none => exact ih h
    | some r =>
      have hr := verdict_follows hverdict
      have hhead := h.rowsHead_register hr indexedAt
      have hstate := h.rowsState_register hr indexedAt
      dsimp only
      rw [rowsAfter_cons, ← hhead, ih (h.register hr), hstate]
      simp

end AgenticDynamics.Control
