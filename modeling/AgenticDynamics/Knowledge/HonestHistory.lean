import AgenticDynamics.Library.Neighbours
import AgenticDynamics.Knowledge.RegistryHead

/-!
# Compaction of a linear history

An entity is upserted, superseded any number of times and perhaps deleted, and the lines of other
entities stand between its own. A compaction then has one row for it, headed by the last version,
and the last version alone can be open.
-/

namespace AgenticDynamics.Knowledge

open Python StableSort Neighbours

/-! ### The lines of a history -/

namespace Handling

def kid (x : Handling) : String := x.record.knowledgeId

def line (x : Handling) : Row where
  knowledgeId := some x.record.knowledgeId
  entityId := some x.record.entityId
  sourceType := some x.record.sourceType
  logicalLocator := some x.record.logicalLocator
  sourceUri := some x.record.sourceUri
  lifecycleState := some (lifecycleStateFor x.operation)
  observedAt := some x.record.observedAt
  indexedAt := some x.record.indexedAt
  supersedes := x.record.supersedes
  causes := x.record.causes
  reason := some x.reason

def marker (x : Handling) : Option Row :=
  if x.operation = "supersede" then
    (truthy x.record.supersedes).map fun predecessor =>
      { knowledgeId := some predecessor
        entityId := some x.record.entityId
        lifecycleState := some "superseded"
        validTo := some x.record.validFrom
        indexedAt := some x.record.indexedAt }
  else none

lemma registryLines_eq (x : Handling) :
    registryLines x.record x.operation x.reason = x.line :: x.marker.toList := by
  by_cases hop : x.operation = "supersede"
  · cases hpred : truthy x.record.supersedes with
    | none => simp [registryLines, marker, line, hop, hpred]
    | some predecessor => simp [registryLines, marker, line, hop, hpred]
  · cases hpred : truthy x.record.supersedes with
    | none => simp [registryLines, marker, line, hop, hpred]
    | some predecessor => simp [registryLines, marker, line, hop, hpred]

lemma mem_marker {x : Handling} {m : Row} (h : m ∈ x.marker) :
    x.operation = "supersede" ∧ truthy x.record.supersedes = some m.kid ∧
      m.supersedes = none ∧ m.observedAt = none := by
  rw [marker] at h
  split at h
  · rename_i hop
    obtain ⟨predecessor, hpred, rfl⟩ := Option.map_eq_some_iff.mp h
    exact ⟨hop, hpred, rfl, rfl⟩
  · cases h

end Handling

lemma registryLog_cons (x : Handling) (hs : List Handling) :
    registryLog (x :: hs) = x.line :: x.marker.toList ++ registryLog hs := by
  rw [registryLog, List.flatMap_cons, x.registryLines_eq]
  rfl

lemma registryLog_append (hs more : List Handling) :
    registryLog (hs ++ more) = registryLog hs ++ registryLog more := List.flatMap_append

lemma said_in_log {f : Row → Option String} (hf : ∀ x : Handling, ∀ m ∈ x.marker, f m = none)
    (hs : List Handling) (k : String) :
    (linesOf (registryLog hs) k).filterMap f =
      (hs.filter fun x => x.kid = k).filterMap fun x => f x.line := by
  induction hs with
  | nil => rfl
  | cons x hs ih =>
    have hmarker : (x.marker.toList.filter fun r => r.kid = k).filterMap f = [] := by
      refine List.filterMap_eq_nil_iff.mpr fun m hm => hf x m ?_
      simpa using List.mem_of_mem_filter hm
    have hline : x.line.kid = x.kid := rfl
    rw [linesOf] at ih ⊢
    rw [registryLog_cons, List.filter_append, List.filterMap_append, ih, List.filter_cons,
      List.filter_cons, hline]
    by_cases hk : x.kid = k
    · cases hsaid : f x.line <;> simp [hk, hsaid, hmarker]
    · simp [hk, hmarker]

/-- An entity is upserted, superseded and perhaps deleted. -/
structure VersionHistory where
  first : Handling
  later : List Handling := []
  deletion : Option Handling := none

namespace VersionHistory

variable (h : VersionHistory)

def chain : List Handling := h.first :: h.later

def last : Handling := h.chain.getLast (List.cons_ne_nil _ _)

def handlings : List Handling := h.chain ++ h.deletion.toList

/-- The last handling of each version. A deletion is of the last version, when it has its id, or
it is a version of its own. -/
def versions : List Handling :=
  match h.deletion with
  | none   => h.chain
  | some d => (if d.kid = h.last.kid then h.chain.dropLast else h.chain) ++ [d]

end VersionHistory

/-- The pointer that a deletion may have when it is a version of its own: none, to the last
version, or the one of the last version, of which the record was copied. -/
def TombstonePointer (last d : Handling) : Prop :=
  truthy d.record.supersedes = none ∨ d.record.supersedes = some last.kid ∨
    (d.record.supersedes = last.record.supersedes ∧
      d.record.observedAt = last.record.observedAt)

/-- The log holds the lines of the history of the entity, and lines of other entities between
them. -/
structure LinearLog (e : String) (h : VersionHistory) (log : List Row) : Prop where
  entity : ∀ x ∈ h.handlings, x.record.entityId = e
  entity_ne : e ≠ ""
  upsert : h.first.operation = "upsert"
  supersede : ∀ x ∈ h.later, x.operation = "supersede"
  delete : ∀ d ∈ h.deletion, d.operation = "delete"
  fresh : truthy h.first.record.supersedes = none
  linked : h.chain.IsChain fun a b => b.record.supersedes = some a.kid
  deleted : ∀ d ∈ h.deletion, if d.kid = h.last.kid
    then d.record.supersedes = h.last.record.supersedes else TombstonePointer h.last d
  distinct : (h.versions.map Handling.kid).Nodup
  kid_ne : ∀ x ∈ h.versions, x.kid ≠ ""
  later : h.handlings.Pairwise fun a b => a.record.indexedAt ≤ b.record.indexedAt
  lines : (log.filter fun r => r.entity = e) = registryLog h.handlings
  others : ∀ r ∈ log, r.entity ≠ e → r.indexedAt.isSome ∧ r.kid ∉ h.versions.map Handling.kid ∧
    ∀ x ∈ h.versions, truthy r.supersedes ≠ some x.kid

/-! ### Which version names which -/

/-- Each version names the one before it and the first one names none. -/
structure Linked (vs : List Handling) : Prop where
  chain : vs.IsChain fun a b => b.record.supersedes = some a.kid
  fresh : ∀ x ∈ vs.head?, truthy x.record.supersedes = none

section Linked

variable {vs : List Handling} {a b x : Handling} {k : String}

lemma truthy_some {k k' : String} (h : truthy (some k) = some k') : k = k' :=
  Option.some.inj (mem_of_truthy h)

lemma Linked.target (h : Linked vs) (hx : x ∈ vs) (hk : truthy x.record.supersedes = some k) :
    ∃ a, Follows vs a x ∧ a.kid = k := by
  cases vs with
  | nil => exact absurd hx (by simp)
  | cons c vs =>
    rcases List.mem_cons.mp hx with rfl | hx
    · rw [h.fresh x (by simp)] at hk
      cases hk
    · obtain ⟨a, ha⟩ := follows_of_isChain h.chain hx
      refine ⟨a, ha, ?_⟩
      rw [ha.rel h.chain] at hk
      exact truthy_some hk

lemma Linked.named (h : Linked vs) (hnodup : (vs.map Handling.kid).Nodup) (ha : Follows vs a b)
    (hx : x ∈ vs) (hk : truthy x.record.supersedes = some a.kid) : x = b := by
  obtain ⟨a', ha', hkid⟩ := h.target hx hk
  obtain rfl := List.inj_on_of_nodup_map hnodup ha'.mem.1 ha.mem.1 hkid
  exact ha'.unique ha hnodup.of_map

lemma Linked.last_unnamed (h : Linked vs) (hnodup : (vs.map Handling.kid).Nodup)
    (hlast : vs.getLast? = some a) (hx : x ∈ vs) : truthy x.record.supersedes ≠ some a.kid := by
  intro hk
  obtain ⟨a', ha', hkid⟩ := h.target hx hk
  obtain rfl := List.inj_on_of_nodup_map hnodup ha'.mem.1 (List.mem_of_getLast? hlast) hkid
  exact ha'.not_last hnodup.of_map hlast

end Linked

namespace VersionHistory

variable (h : VersionHistory)

lemma chain_eq : h.chain = h.chain.dropLast ++ [h.last] :=
  (List.dropLast_append_getLast _).symm

lemma getLast?_chain : h.chain.getLast? = some h.last :=
  List.getLast?_eq_some_iff.mpr ⟨_, h.chain_eq⟩

/-- The last handlings of the versions, and before the very last one perhaps another handling of
the same version. -/
lemma versions_cases :
    (h.deletion = none ∧ h.versions = h.chain ∧ h.handlings = h.chain) ∨
      (∃ d, h.deletion = some d ∧ d.kid = h.last.kid ∧ h.versions = h.chain.dropLast ++ [d] ∧
        h.handlings = h.chain.dropLast ++ [h.last] ++ [d]) ∨
      ∃ d, h.deletion = some d ∧ d.kid ≠ h.last.kid ∧ h.versions = h.chain ++ [d] ∧
        h.handlings = h.chain ++ [d] := by
  cases hd : h.deletion with
  | none => exact .inl ⟨rfl, by simp [versions, hd], by simp [handlings, hd]⟩
  | some d =>
    by_cases hkid : d.kid = h.last.kid
    · refine .inr (.inl ⟨d, rfl, hkid, by simp [versions, hd, hkid], ?_⟩)
      rw [← h.chain_eq, handlings, hd]
      rfl
    · exact .inr (.inr ⟨d, rfl, hkid, by simp [versions, hd, hkid], by simp [handlings, hd]⟩)

end VersionHistory

section LinearLog

variable {e : String} {h : VersionHistory} {log : List Row} (hl : LinearLog e h log)
include hl

lemma LinearLog.linked_chain : Linked h.chain :=
  ⟨hl.linked, fun x hx => by
    obtain rfl := Option.some.inj hx
    exact hl.fresh⟩

/-- Either every version names the one before it, or the history ends with a tombstone that does
not name the version before it. -/
lemma LinearLog.linked_or :
    Linked h.versions ∨ ∃ d, h.versions = h.chain ++ [d] ∧ d.operation = "delete" ∧
      (truthy d.record.supersedes = none ∨ (d.record.supersedes = h.last.record.supersedes ∧
        d.record.observedAt = h.last.record.observedAt)) := by
  have hchain := hl.linked_chain
  rcases h.versions_cases with ⟨-, hv, -⟩ | ⟨d, hd, hkid, hv, -⟩ | ⟨d, hd, hkid, hv, -⟩
  · exact .inl (hv ▸ hchain)
  · have hpointer : d.record.supersedes = h.last.record.supersedes := by
      simpa [hkid] using hl.deleted d hd
    have hlinks := h.chain_eq ▸ hchain.chain
    refine .inl ⟨?_, fun x hx => ?_⟩
    · rw [hv]
      refine List.isChain_append.mpr ⟨(List.isChain_append.mp hlinks).1, by simp, ?_⟩
      intro a ha b hb
      obtain rfl : b = d := by simpa using hb.symm
      rw [hpointer]
      exact (List.isChain_append.mp hlinks).2.2 a ha h.last (by simp)
    · rw [hv] at hx
      cases hinit : h.chain.dropLast with
      | nil =>
        obtain rfl : d = x := by simpa [hinit] using hx
        have hone := h.chain_eq
        rw [hinit] at hone
        rw [hpointer]
        exact hchain.fresh h.last (by simp [hone])
      | cons y init =>
        obtain rfl : y = x := by simpa [hinit] using hx
        have hone := h.chain_eq
        rw [hinit] at hone
        exact hchain.fresh y (by simp [hone])
  · have hpointer : TombstonePointer h.last d := by simpa [hkid] using hl.deleted d hd
    rcases hpointer with hnone | hlast | hcopy
    · exact .inr ⟨d, hv, hl.delete d hd, .inl hnone⟩
    · refine .inl ⟨?_, fun x hx => ?_⟩
      · rw [hv]
        refine List.isChain_append.mpr ⟨hchain.chain, by simp, ?_⟩
        intro a ha b hb
        obtain rfl : b = d := by simpa using hb.symm
        obtain rfl : h.last = a := by simpa [h.getLast?_chain] using ha
        exact hlast
      · rw [hv] at hx
        exact hchain.fresh x (by simpa [VersionHistory.chain] using hx)
    · exact .inr ⟨d, hv, hl.delete d hd, .inr hcopy⟩

/-- Whoever names a version has been observed when its follower was, and its follower names it
unless it is a tombstone without a pointer to it. -/
lemma LinearLog.followed {a b : Handling} (hab : Follows h.versions a b) :
    (∀ x ∈ h.versions, truthy x.record.supersedes = some a.kid →
      x.record.observedAt = b.record.observedAt) ∧
      (b.record.supersedes = some a.kid ∨ (h.versions = h.chain ++ [b] ∧ a = h.last ∧
        b.operation = "delete" ∧ ∀ x ∈ h.versions, truthy x.record.supersedes ≠ some a.kid)) := by
  have hdistinct := hl.distinct
  rcases hl.linked_or with hlinked | ⟨d, hv, hop, hpointer⟩
  · refine ⟨fun x hx hk => ?_, .inl (hab.rel hlinked.chain)⟩
    rw [hlinked.named hdistinct hab hx hk]
  · have hchain := hl.linked_chain
    rw [hv] at hab hdistinct ⊢
    have hnodup : (h.chain.map Handling.kid).Nodup := by
      rw [List.map_append] at hdistinct
      exact (List.nodup_append.mp hdistinct).1
    have hlast := h.getLast?_chain
    -- the tombstone names nobody, or whom the last version names
    have htomb : ∀ {k : String}, truthy d.record.supersedes = some k →
        truthy h.last.record.supersedes = some k ∧
          d.record.observedAt = h.last.record.observedAt := by
      intro k hk
      rcases hpointer with hnone | ⟨hcopy, hobserved⟩
      · rw [hnone] at hk
        cases hk
      · exact ⟨hcopy ▸ hk, hobserved⟩
    rcases follows_concat.mp hab with hbefore | ⟨ha, rfl⟩
    · refine ⟨fun x hx hk => ?_, .inl (hbefore.rel hchain.chain)⟩
      rcases List.mem_append.mp hx with hx | hx
      · rw [hchain.named hnodup hbefore hx hk]
      · obtain rfl := List.mem_singleton.mp hx
        obtain ⟨hk, hobserved⟩ := htomb hk
        rw [hobserved, hchain.named hnodup hbefore (List.mem_of_getLast? hlast) hk]
    · have hunnamed : ∀ x ∈ h.chain ++ [b], truthy x.record.supersedes ≠ some a.kid := by
        intro x hx hk
        rcases List.mem_append.mp hx with hx | hx
        · exact hchain.last_unnamed hnodup ha hx hk
        · obtain rfl := List.mem_singleton.mp hx
          exact hchain.last_unnamed hnodup ha (List.mem_of_getLast? hlast) (htomb hk).1
      obtain rfl : h.last = a := Option.some.inj (hlast.symm.trans ha)
      exact ⟨fun x hx hk => absurd hk (hunnamed x hx), .inr ⟨rfl, rfl, hop, hunnamed⟩⟩

lemma LinearLog.last_unnamed {z x : Handling} (hz : h.versions.getLast? = some z)
    (hx : x ∈ h.versions) : truthy x.record.supersedes ≠ some z.kid := by
  have hdistinct := hl.distinct
  rcases hl.linked_or with hlinked | ⟨d, hv, hop, hpointer⟩
  · exact hlinked.last_unnamed hdistinct hz hx
  · have hchain := hl.linked_chain
    have hlast := List.mem_of_getLast? h.getLast?_chain
    rw [hv] at hz hx hdistinct
    obtain rfl : d = z := by simpa using hz
    rw [List.map_append] at hdistinct
    have hfresh : ∀ y ∈ h.chain, y.kid ≠ d.kid := fun y hy =>
      (List.nodup_append.mp hdistinct).2.2 _ (List.mem_map_of_mem hy) _ (by simp)
    have hchained : ∀ y ∈ h.chain, truthy y.record.supersedes ≠ some d.kid := by
      intro y hy hk
      obtain ⟨a, ha, hkid⟩ := hchain.target hy hk
      exact hfresh a ha.mem.1 hkid
    rcases List.mem_append.mp hx with hx | hx
    · exact hchained x hx
    · obtain rfl := List.mem_singleton.mp hx
      intro hk
      rcases hpointer with hnone | ⟨hcopy, -⟩
      · rw [hnone] at hk
        cases hk
      · exact hchained h.last hlast (hcopy ▸ hk)

lemma LinearLog.chain_not_deleted {x : Handling} (hx : x ∈ h.chain) : x.operation ≠ "delete" := by
  rcases List.mem_cons.mp hx with rfl | hx
  · rw [hl.upsert]
    decide
  · rw [hl.supersede x hx]
    decide

omit hl in
lemma VersionHistory.handlings_of_tombstone {d : Handling} (hv : h.versions = h.chain ++ [d]) :
    h.handlings = h.chain ++ [d] := by
  have hlength := congrArg List.length hv
  rcases h.versions_cases with ⟨-, hv', -⟩ | ⟨d', -, -, hv', -⟩ | ⟨d', -, -, hv', hh⟩
  · simp [hv'] at hlength
  · simp [hv', VersionHistory.chain] at hlength
  · rw [hh, ← hv', hv]

/-! ### The rows of the history -/

omit hl in
lemma VersionHistory.shape (h : VersionHistory) : ∃ settled again z,
    h.versions = settled ++ [z] ∧ h.handlings = settled ++ again ++ [z] ∧
      ((again = [] ∧ ∀ d ∈ h.deletion, z = d ∧ d.kid ≠ h.last.kid) ∨
        (again = [h.last] ∧ z ∈ h.deletion ∧ z.kid = h.last.kid)) := by
  rcases h.versions_cases with ⟨hd, hv, hh⟩ | ⟨d, hd, hkid, hv, hh⟩ | ⟨d, hd, hkid, hv, hh⟩
  · refine ⟨h.chain.dropLast, [], h.last, by rw [hv, ← h.chain_eq], ?_, .inl ⟨rfl, ?_⟩⟩
    · rw [hh, List.append_nil, ← h.chain_eq]
    · simp [hd]
  · exact ⟨h.chain.dropLast, [h.last], d, hv, hh, .inr ⟨rfl, by simp [hd], hkid⟩⟩
  · exact ⟨h.chain, [], d, hv, by simp [hh], .inl ⟨rfl, by simp [hd, hkid]⟩⟩

lemma LinearLog.handlings_of {x : Handling} (hx : x ∈ h.versions) :
    ∃ earlier, (h.handlings.filter fun y => y.kid = x.kid) = earlier ++ [x] ∧
      ∀ y ∈ earlier, y.record.supersedes = x.record.supersedes := by
  obtain ⟨settled, again, z, hv, hh, hagain⟩ := h.shape
  have hone := filter_key_eq hl.distinct hx
  rw [hv, List.filter_append] at hone
  rw [hh, List.filter_append, List.filter_append]
  rcases hagain with ⟨rfl, -⟩ | ⟨rfl, hz, hkid⟩
  · exact ⟨[], by simpa using hone, by simp⟩
  · have hpointer : z.record.supersedes = h.last.record.supersedes := by
      simpa [hkid] using hl.deleted z hz
    by_cases hxz : z.kid = x.kid
    · have hsettled : (settled.filter fun y => y.kid = x.kid) = [] := by
        have hlen := congrArg List.length hone
        simpa [hxz] using hlen
      obtain rfl : z = x := by simpa [hsettled, hxz] using hone
      refine ⟨[h.last], ?_, by simp [hpointer]⟩
      rw [hsettled, List.filter_cons_of_pos (by simp [hkid]), List.filter_cons_of_pos (by simp)]
      rfl
    · refine ⟨[], ?_, by simp⟩
      have hne : ¬ h.last.kid = x.kid := hkid ▸ hxz
      simpa [hxz, hne] using hone

omit hl in
lemma VersionHistory.kid_of_handling {x : Handling} (hx : x ∈ h.handlings) :
    ∃ y ∈ h.versions, y.kid = x.kid := by
  obtain ⟨settled, again, z, hv, hh, hagain⟩ := h.shape
  have hz : z ∈ h.versions := by simp [hv]
  rw [hh] at hx
  rcases List.mem_append.mp hx with hx | hx
  · rcases List.mem_append.mp hx with hx | hx
    · exact ⟨x, by simp [hv, hx], rfl⟩
    · rcases hagain with ⟨rfl, -⟩ | ⟨rfl, -, hkid⟩
      · exact absurd hx (by simp)
      · exact ⟨z, hz, by rw [List.mem_singleton.mp hx, hkid]⟩
  · exact ⟨z, hz, by rw [List.mem_singleton.mp hx]⟩

lemma LinearLog.marked {x : Handling} (hx : x ∈ h.handlings) {m : Row} (hm : m ∈ x.marker) :
    ∃ y ∈ h.versions, y.kid = m.kid := by
  obtain ⟨hop, hpred, -⟩ := Handling.mem_marker hm
  have hchain : x ∈ h.chain := by
    rcases List.mem_append.mp hx with hx | hx
    · exact hx
    · have hdelete := hl.delete x (by simpa using hx)
      rw [hop] at hdelete
      exact absurd hdelete (by decide)
  obtain ⟨a, ha, hkid⟩ := hl.linked_chain.target hchain hpred
  rw [← hkid]
  exact VersionHistory.kid_of_handling (List.mem_append_left _ ha.mem.1)

lemma LinearLog.kid_of_line {r : Row} (hr : r ∈ registryLog h.handlings) :
    ∃ y ∈ h.versions, y.kid = r.kid := by
  obtain ⟨x, hx, hline⟩ := mem_registryLog.mp hr
  rw [x.registryLines_eq] at hline
  rcases List.mem_cons.mp hline with rfl | hline
  · exact VersionHistory.kid_of_handling hx
  · exact hl.marked hx (by simpa using hline)

lemma LinearLog.mem_log {r : Row} :
    r ∈ registryLog h.handlings ↔ r ∈ log ∧ r.entity = e := by
  rw [← hl.lines]
  simp

lemma LinearLog.line_of_kid {r : Row} (hr : r ∈ log) {x : Handling} (hx : x ∈ h.versions)
    (hkid : r.kid = x.kid) : r ∈ registryLog h.handlings := by
  refine hl.mem_log.mpr ⟨hr, ?_⟩
  by_contra hother
  exact (hl.others r hr hother).2.1 (hkid ▸ List.mem_map_of_mem hx)

lemma LinearLog.attributed {r : Row} (hr : r ∈ registryLog h.handlings) :
    r ∈ Knowledge.attributed log := by
  obtain ⟨hlog, hentity⟩ := hl.mem_log.mp hr
  obtain ⟨y, hy, hkid⟩ := hl.kid_of_line hr
  refine List.mem_filter.mpr ⟨hlog, decide_eq_true ⟨?_, hentity ▸ hl.entity_ne⟩⟩
  rw [← hkid]
  exact hl.kid_ne y hy

lemma LinearLog.linesOf_eq {x : Handling} (hx : x ∈ h.versions) :
    linesOf (Knowledge.attributed log) x.kid = linesOf (registryLog h.handlings) x.kid := by
  rw [linesOf, linesOf, ← hl.lines, Knowledge.attributed, List.filter_filter, List.filter_filter]
  refine List.filter_congr fun r hr => ?_
  by_cases hkid : r.kid = x.kid
  · have hline := hl.line_of_kid hr hx hkid
    have hattributed := List.of_mem_filter (hl.attributed hline)
    simp [(hl.mem_log.mp hline).2, of_decide_eq_true hattributed]
  · simp [hkid]

lemma LinearLog.sorted (k : String) :
    (linesOf (registryLog h.handlings) k).Pairwise fun a b => a.indexed ≤ b.indexed :=
  (pairwise_registryLog hl.later).filter _

lemma LinearLog.stamped : ∀ r ∈ Knowledge.attributed log, r.indexedAt.isSome := by
  intro r hr
  have hlog := List.mem_of_mem_filter hr
  by_cases hentity : r.entity = e
  · obtain ⟨x, -, hline⟩ := mem_registryLog.mp (hl.mem_log.mpr ⟨hlog, hentity⟩)
    simp [(registryLines_spec hline).2]
  · exact (hl.others r hlog hentity).1

lemma LinearLog.row_of {kv : String × Row} (hkv : kv ∈ byKnowledgeId (Knowledge.attributed log))
    {x : Handling} (hx : x ∈ h.versions) (hkid : kv.1 = x.kid) :
    kv.2.supersedes = x.record.supersedes ∧ kv.2.observedAt = some x.record.observedAt := by
  have hfold := mem_byKnowledgeId.mp hkv
  rw [hkid, hl.linesOf_eq hx] at hfold
  obtain ⟨earlier, hof, hearlier⟩ := hl.handlings_of hx
  constructor
  · rw [row_says_last (f := Row.supersedes) (fun _ _ => rfl) (hl.sorted _) hfold,
      said_in_log (fun _ _ hm => (Handling.mem_marker hm).2.2.1), hof, List.filterMap_append,
      List.getLast?_append]
    cases hpointer : x.record.supersedes with
    | some p => simp [Handling.line, hpointer]
    | none =>
      simpa [Handling.line, hpointer] using fun y hy => (hearlier y hy).trans hpointer
  · rw [row_says_last (f := Row.observedAt) (fun _ _ => rfl) (hl.sorted _) hfold,
      said_in_log (fun _ _ hm => (Handling.mem_marker hm).2.2.2), hof, List.filterMap_append,
      List.getLast?_append]
    simp [Handling.line]

lemma LinearLog.row_of_other {kv : String × Row}
    (hkv : kv ∈ byKnowledgeId (Knowledge.attributed log)) (hkid : ∀ x ∈ h.versions, kv.1 ≠ x.kid) :
    kv.2.entity ≠ e ∧ ∀ x ∈ h.versions, truthy kv.2.supersedes ≠ some x.kid := by
  have hline : ∀ r ∈ linesOf (Knowledge.attributed log) kv.1,
      r.entity ≠ e ∧ ∀ x ∈ h.versions, truthy r.supersedes ≠ some x.kid := by
    intro r hr
    have hlog := List.mem_of_mem_filter (List.mem_of_mem_filter hr)
    have hentity : r.entity ≠ e := by
      intro hentity
      obtain ⟨y, hy, hy'⟩ := hl.kid_of_line (hl.mem_log.mpr ⟨hlog, hentity⟩)
      have hk : r.kid = kv.1 := by simpa using List.of_mem_filter hr
      exact hkid y hy (by rw [hy', hk])
    exact ⟨hentity, (hl.others r hlog hentity).2.2⟩
  refine row_induction (P := fun row => row.entity ≠ e ∧
    ∀ x ∈ h.versions, truthy row.supersedes ≠ some x.kid) hline ?_ (mem_byKnowledgeId.mp hkv)
  rintro ex r ⟨hex, hexs⟩ ⟨hr, hrs⟩
  constructor
  · cases hid : r.entityId with
    | none => simpa [Row.entity, Row.merge, hid] using hex
    | some e' => simpa [Row.entity, Row.merge, hid] using hr
  · intro x hx
    cases hs : r.supersedes with
    | none => simpa [Row.merge, hs] using hexs x hx
    | some p => simpa [Row.merge, hs] using hrs x hx

lemma LinearLog.namer {kv : String × Row} (hkv : kv ∈ byKnowledgeId (Knowledge.attributed log))
    {a : Handling} (ha : a ∈ h.versions) (hs : truthy kv.2.supersedes = some a.kid) :
    ∃ x ∈ h.versions, kv.1 = x.kid ∧ truthy x.record.supersedes = some a.kid := by
  by_cases hkid : ∀ x ∈ h.versions, kv.1 ≠ x.kid
  · exact absurd hs ((hl.row_of_other hkv hkid).2 a ha)
  · push Not at hkid
    obtain ⟨x, hx, hk⟩ := hkid
    exact ⟨x, hx, hk, (hl.row_of hkv hx hk).1 ▸ hs⟩

omit hl in
lemma VersionHistory.handling_of_version {x : Handling} (hx : x ∈ h.versions) :
    x ∈ h.handlings := by
  obtain ⟨settled, again, z, hv, hh, -⟩ := h.shape
  rw [hv] at hx
  rw [hh, List.append_assoc]
  rcases List.mem_append.mp hx with hx | hx
  · exact List.mem_append_left _ hx
  · exact List.mem_append_right _ (List.mem_append_right _ hx)

lemma LinearLog.exists_row {x : Handling} (hx : x ∈ h.versions) :
    ∃ kv ∈ byKnowledgeId (Knowledge.attributed log), kv.1 = x.kid := by
  have hline : x.line ∈ registryLog h.handlings := by
    refine mem_registryLog.mpr ⟨x, VersionHistory.handling_of_version hx, ?_⟩
    rw [x.registryLines_eq]
    exact List.mem_cons_self
  exact List.mem_map.mp (mem_keys.mpr ⟨x.line, hl.attributed hline, rfl⟩)

lemma LinearLog.row_of_last {kv : String × Row}
    (hkv : kv ∈ byKnowledgeId (Knowledge.attributed log)) {x : Handling} (hx : x ∈ h.versions)
    (hkid : kv.1 = x.kid) {pre post : List Handling} (hsplit : h.handlings = pre ++ x :: post)
    (hpost : ∀ y ∈ post, y.kid ≠ x.kid)
    (hunnamed : ∀ y ∈ x :: post, truthy y.record.supersedes ≠ some x.kid) :
    kv.2.lifecycleState = some (lifecycleStateFor x.operation) ∧
      kv.2.indexedAt = some x.record.indexedAt := by
  have hmarker : ∀ y ∈ x :: post, (y.marker.toList.filter fun r => r.kid = x.kid) = [] := by
    intro y hy
    refine List.filter_eq_nil_iff.mpr fun m hm hk => hunnamed y hy ?_
    rw [(Handling.mem_marker (by simpa using hm)).2.1, of_decide_eq_true hk]
  have hbehind : linesOf (registryLog post) x.kid = [] := by
    refine List.filter_eq_nil_iff.mpr fun r hr hk => ?_
    obtain ⟨y, hy, hline⟩ := mem_registryLog.mp hr
    rw [y.registryLines_eq] at hline
    rcases List.mem_cons.mp hline with rfl | hline
    · exact hpost y hy (of_decide_eq_true hk)
    · have hnil := hmarker y (List.mem_cons_of_mem _ hy)
      exact List.filter_eq_nil_iff.mp hnil r hline hk
  have hlines : linesOf (registryLog h.handlings) x.kid =
      linesOf (registryLog pre) x.kid ++ [x.line] := by
    have hself : x.line.kid = x.kid := rfl
    rw [linesOf] at hbehind
    rw [hsplit, registryLog_append, registryLog_cons, linesOf, linesOf, List.filter_append,
      List.filter_append, hbehind, List.filter_cons_of_pos (by simp [hself]),
      hmarker x List.mem_cons_self]
    rfl
  have hfold := mem_byKnowledgeId.mp hkv
  rw [hkid, hl.linesOf_eq hx] at hfold
  have hsorted := hl.sorted x.kid
  rw [hlines] at hfold hsorted
  constructor
  · rw [row_says_last (f := Row.lifecycleState) (fun _ _ => rfl) hsorted hfold,
      List.filterMap_append, List.getLast?_append]
    rfl
  · rw [row_says_last (f := Row.indexedAt) (fun _ _ => rfl) hsorted hfold,
      List.filterMap_append, List.getLast?_append]
    rfl

/-! ### The versions of the entity -/

omit hl in
lemma exists_of_get?_successors {d : Dict Row} {k : String} {row : Row}
    (hget : (successors d).get? k = some row) :
    ∃ kv ∈ d, kv.2 = row ∧ truthy kv.2.supersedes = some k := by
  induction d using List.reverseRecOn with
  | nil => simp [successors, Dict.get?] at hget
  | append_singleton d kv ih =>
    rw [successors_concat] at hget
    cases hs : truthy kv.2.supersedes with
    | none =>
      rw [hs] at hget
      obtain ⟨kv', hkv', hrow⟩ := ih hget
      exact ⟨kv', List.mem_append_left _ hkv', hrow⟩
    | some k' =>
      rw [hs, Option.elim_some, Dict.get?_set] at hget
      by_cases hk : k' = k
      · rw [if_pos hk, Option.some.injEq] at hget
        exact ⟨kv, by simp, hget, hk ▸ hs⟩
      · rw [if_neg hk] at hget
        obtain ⟨kv', hkv', hrow⟩ := ih hget
        exact ⟨kv', List.mem_append_left _ hkv', hrow⟩

/-- What ends a version in the index: the observation of its follower, or a stamp of the history
where the follower does not say when it was observed. -/
def EndedBy (h : VersionHistory) (b : Handling) (validTo : Option String) : Prop :=
  ∃ t, validTo = some t ∧ if b.record.observedAt = "" then ∃ y ∈ h.handlings, t = y.record.indexedAt
    else t = b.record.observedAt

lemma LinearLog.stamp_of_row {kv : String × Row}
    (hkv : kv ∈ byKnowledgeId (Knowledge.attributed log)) {x : Handling} (hx : x ∈ h.versions)
    (hkid : kv.1 = x.kid) : ∃ y ∈ h.handlings, kv.2.indexedAt = some y.record.indexedAt := by
  have hfold := mem_byKnowledgeId.mp hkv
  rw [hkid, hl.linesOf_eq hx] at hfold
  refine row_induction (P := fun row => ∃ y ∈ h.handlings, row.indexedAt = some y.record.indexedAt)
    (fun r hr => ?_) (fun ex r _ hr => ?_) hfold
  · obtain ⟨y, hy, hline⟩ := mem_registryLog.mp (List.mem_of_mem_filter hr)
    exact ⟨y, hy, (registryLines_spec hline).2⟩
  · obtain ⟨y, hy, hindexed⟩ := hr
    exact ⟨y, hy, by simp [Row.merge, hindexed]⟩

lemma LinearLog.endedBy_of_row {kv : String × Row}
    (hkv : kv ∈ byKnowledgeId (Knowledge.attributed log)) {x b : Handling} (hx : x ∈ h.versions)
    (hkid : kv.1 = x.kid) (hobserved : x.record.observedAt = b.record.observedAt) :
    EndedBy h b ((truthy kv.2.observedAt).or kv.2.indexedAt) := by
  obtain ⟨y, hy, hindexed⟩ := hl.stamp_of_row hkv hx hkid
  rw [(hl.row_of hkv hx hkid).2, hobserved, hindexed]
  by_cases hempty : b.record.observedAt = ""
  · refine ⟨y.record.indexedAt, ?_, by rw [if_pos hempty]; exact ⟨y, hy, rfl⟩⟩
    rw [hempty]
    rfl
  · exact ⟨b.record.observedAt, by simp [truthy, Option.filter, hempty], by rw [if_neg hempty]⟩

/-- A version of the history: it is superseded by its follower; or it is the last one, open or
deleted; or it is open and followed by a tombstone that does not name it. -/
inductive VersionState (h : VersionHistory) (x : Handling) (v : Version) : Prop
  | followed (b : Handling) (hb : Follows h.versions x b) (hstate : v.lifecycle = .superseded)
      (hended : EndedBy h b v.validTo)
  | last (hlast : h.versions.getLast? = some x)
      (hstate : v.lifecycle = if x.operation = "delete" then .tombstoned else .current)
      (hindexed : v.row.indexedAt = some x.record.indexedAt)
  | leftOpen (d : Handling) (hd : h.versions = h.chain ++ [d]) (hx : x = h.last)
      (hop : d.operation = "delete") (hstate : v.lifecycle = .current)
      (hindexed : v.row.indexedAt = some x.record.indexedAt)

lemma LinearLog.unnamed_state {v : Version} {kv : String × Row} {x : Handling}
    (hkv : kv ∈ byKnowledgeId (Knowledge.attributed log)) (hx : x ∈ h.versions)
    (hkid : kv.1 = x.kid) (hstate : (v.lifecycle, v.validTo) =
      deriveLifecycle kv.2 (successors (byKnowledgeId (Knowledge.attributed log))))
    (hunnamed : ∀ y ∈ h.versions, truthy y.record.supersedes ≠ some x.kid)
    (hsaid : kv.2.lifecycleState = some (lifecycleStateFor x.operation)) :
    v.lifecycle = if x.operation = "delete" then .tombstoned else .current := by
  have hget : (successors (byKnowledgeId (Knowledge.attributed log))).get? kv.2.kid = none := by
    cases hget : (successors (byKnowledgeId (Knowledge.attributed log))).get? kv.2.kid with
    | none => rfl
    | some row =>
      rw [kid_of_mem hkv, hkid] at hget
      obtain ⟨kv', hkv', -, hs⟩ := exists_of_get?_successors hget
      obtain ⟨y, hy, -, hnames⟩ := hl.namer hkv' hx hs
      exact absurd hnames (hunnamed y hy)
  rw [deriveLifecycle, hget, hsaid] at hstate
  have hfst : v.lifecycle = _ := congrArg Prod.fst hstate
  rw [hfst, lifecycleStateFor]
  by_cases hop : x.operation = "delete" <;> simp [hop]

lemma LinearLog.versionState {v : Version} (hv : v ∈ Knowledge.versions (Knowledge.attributed log))
    {x : Handling} (hx : x ∈ h.versions) (hkid : v.row.kid = x.kid) : VersionState h x v := by
  obtain ⟨kv, hkv, hrow, hstate⟩ := exists_row_of_mem_versions hv
  have hkey : kv.1 = x.kid := by rw [← kid_of_mem hkv, ← hrow, hkid]
  rcases follows_or_last hx with ⟨b, hb⟩ | hlast
  · obtain ⟨hobserved, hnames⟩ := hl.followed hb
    rcases hnames with hnames | ⟨hvs, rfl, hop, hunnamed⟩
    · -- the follower names the version, and all that name it were observed when the follower was
      have hsuccessor : ((successors (byKnowledgeId (Knowledge.attributed log))).get?
          kv.2.kid).isSome := by
        obtain ⟨kb, hkb, hkbid⟩ := hl.exists_row hb.mem.2
        refine isSome_successors.mpr ⟨kb, hkb, ?_⟩
        rw [(hl.row_of hkb hb.mem.2 hkbid).1, hnames, kid_of_mem hkv, hkey]
        exact Option.filter_some_pos (by simpa using hl.kid_ne x hx)
      obtain ⟨row, hget⟩ := Option.isSome_iff_exists.mp hsuccessor
      rw [deriveLifecycle, hget] at hstate
      rw [kid_of_mem hkv, hkey] at hget
      obtain ⟨kv', hkv', rfl, hs⟩ := exists_of_get?_successors hget
      obtain ⟨y, hy, hykid, hyx⟩ := hl.namer hkv' hx hs
      refine .followed b hb (congrArg Prod.fst hstate) ?_
      have hsnd : v.validTo = _ := congrArg Prod.snd hstate
      rw [hsnd]
      exact hl.endedBy_of_row hkv' hy hykid (hobserved y hy hyx)
    · have hsplit : h.handlings = h.chain.dropLast ++ h.last :: [b] := by
        rw [VersionHistory.handlings_of_tombstone hvs]
        nth_rewrite 1 [h.chain_eq]
        simp
      have hfresh : b.kid ≠ h.last.kid := by
        have hdistinct := hl.distinct
        rw [hvs, List.map_append] at hdistinct
        exact fun heq => (List.nodup_append.mp hdistinct).2.2 _
          (List.mem_map_of_mem (List.mem_of_getLast? h.getLast?_chain)) _ (by simp) heq.symm
      obtain ⟨hsaid, hindexed⟩ := hl.row_of_last hkv hx hkey hsplit (by simpa using hfresh)
        fun y hy => hunnamed y (by
          rcases List.mem_pair.mp hy with rfl | rfl
          · exact hx
          · exact hb.mem.2)
      have hlife := hl.unnamed_state hkv hx hkey hstate hunnamed hsaid
      have hlive : h.last.operation ≠ "delete" := hl.chain_not_deleted
        (List.mem_of_getLast? h.getLast?_chain)
      rw [if_neg hlive] at hlife
      exact .leftOpen b hvs rfl hop hlife (hrow ▸ hindexed)
  · have hunnamed : ∀ y ∈ h.versions, truthy y.record.supersedes ≠ some x.kid := fun y hy =>
      hl.last_unnamed hlast hy
    obtain ⟨settled, again, z, hvs, hh, -⟩ := h.shape
    obtain rfl : z = x := by simpa [hvs] using hlast
    obtain ⟨hsaid, hindexed⟩ := hl.row_of_last hkv hx hkey hh (by simp)
      (by simpa using hunnamed z hx)
    exact .last hlast (hl.unnamed_state hkv hx hkey hstate hunnamed hsaid) (hrow ▸ hindexed)

lemma LinearLog.entity_iff {v : Version} (hv : v ∈ Knowledge.versions (Knowledge.attributed log)) :
    v.row.entity = e ↔ ∃ x ∈ h.versions, v.row.kid = x.kid := by
  obtain ⟨kv, hkv, hrow, -⟩ := exists_row_of_mem_versions hv
  rw [hrow, kid_of_mem hkv]
  constructor
  · intro hentity
    by_contra hother
    push Not at hother
    exact (hl.row_of_other hkv hother).1 hentity
  · rintro ⟨x, hx, hkid⟩
    refine entity_of_mem hkv fun r hr hk => ?_
    exact (hl.mem_log.mp (hl.line_of_kid (List.mem_of_mem_filter hr) hx (hk.trans hkid))).2

lemma LinearLog.kids_perm :
    ((entityVersions (Knowledge.attributed log) e).map fun v => v.row.kid).Perm
      (h.versions.map Handling.kid) := by
  have hnodup : ((Knowledge.versions (Knowledge.attributed log)).map fun v => v.row.kid).Nodup := by
    rw [kids_versions]
    exact nodup_firsts _
  have hsub : ((entityVersions (Knowledge.attributed log) e).map fun v => v.row.kid).Nodup :=
    hnodup.sublist (List.Sublist.map _ List.filter_sublist)
  refine (List.perm_ext_iff_of_nodup hsub hl.distinct).mpr fun k => ?_
  simp only [List.mem_map]
  constructor
  · rintro ⟨v, hv, rfl⟩
    obtain ⟨x, hx, hkid⟩ := (hl.entity_iff (List.mem_of_mem_filter hv)).mp
      (by simpa using List.of_mem_filter hv)
    exact ⟨x, hx, hkid.symm⟩
  · rintro ⟨x, hx, rfl⟩
    obtain ⟨kv, hkv, hkid⟩ := hl.exists_row hx
    obtain ⟨r, hr, hk⟩ := mem_keys.mp (List.mem_map_of_mem (f := Prod.fst) hkv)
    obtain ⟨v, hv, hvkid⟩ := exists_version hr
    have hvx : v.row.kid = x.kid := by rw [hvkid, hk, hkid]
    exact ⟨v, List.mem_filter.mpr ⟨hv, decide_eq_true ((hl.entity_iff hv).mpr ⟨x, hx, hvx⟩)⟩, hvx⟩

lemma LinearLog.exists_version {x : Handling} (hx : x ∈ h.versions) :
    ∃ v ∈ entityVersions (Knowledge.attributed log) e, v.row.kid = x.kid :=
  List.mem_map.mp (hl.kids_perm.mem_iff.mpr (List.mem_map_of_mem hx))

lemma LinearLog.exists_handling {v : Version}
    (hv : v ∈ entityVersions (Knowledge.attributed log) e) :
    ∃ x ∈ h.versions, v.row.kid = x.kid ∧ VersionState h x v := by
  have hmem := List.mem_of_mem_filter hv
  obtain ⟨x, hx, hkid⟩ := (hl.entity_iff hmem).mp (by simpa using List.of_mem_filter hv)
  exact ⟨x, hx, hkid, hl.versionState hmem hx hkid⟩

lemma LinearLog.last_state {z : Handling} (hz : h.versions.getLast? = some z) {v : Version}
    (hv : v ∈ entityVersions (Knowledge.attributed log) e) (hkid : v.row.kid = z.kid) :
    v.lifecycle = (if z.operation = "delete" then .tombstoned else .current) ∧
      v.row.indexedAt = some z.record.indexedAt := by
  have hmem := List.mem_of_getLast? hz
  cases hl.versionState (List.mem_of_mem_filter hv) hmem hkid with
  | followed b hb => exact absurd hz (hb.not_last hl.distinct.of_map)
  | last _ hstate hindexed => exact ⟨hstate, hindexed⟩
  | leftOpen d hd hx hop =>
    obtain rfl : d = z := by simpa [hd] using hz
    rw [hx] at hop
    exact absurd hop (hl.chain_not_deleted (List.mem_of_getLast? h.getLast?_chain))

lemma LinearLog.head_kid {head : Version}
    (hhead : IsHead (entityVersions (Knowledge.attributed log) e) head) {z : Handling}
    (hz : h.versions.getLast? = some z) : head.row.kid = z.kid := by
  obtain ⟨v, hv, hvkid⟩ := hl.exists_version (List.mem_of_getLast? hz)
  obtain ⟨hstate, hindexed⟩ := hl.last_state hz hv hvkid
  obtain ⟨x, hx, hkid, hcase⟩ := hl.exists_handling hhead.mem
  cases hcase with
  | last hlast =>
    obtain rfl := Option.some.inj (hlast.symm.trans hz)
    exact hkid
  | followed b hb hsuperseded =>
    -- a superseded head needs that no version is open or deleted, and the last one is
    obtain ⟨htomb, hlive⟩ := hhead.superseded hsuperseded
    by_cases hop : z.operation = "delete"
    · rw [if_pos hop] at hstate
      exact absurd (mem_inState.mpr ⟨hv, hstate⟩) (by simp [htomb])
    · rw [if_neg hop] at hstate
      exact absurd (mem_inState.mpr ⟨hv, hstate⟩) (by simp [hlive])
  | leftOpen d hd hlast hop hcurrent hindexed' =>
    -- the tombstone is not older than the version it leaves open
    obtain rfl : d = z := by simpa [hd] using hz
    rw [if_pos hop] at hstate
    have hbefore := (hhead.live hcurrent).2 v (mem_inState.mpr ⟨hv, hstate⟩)
    have hlater := hl.later
    rw [VersionHistory.handlings_of_tombstone hd] at hlater
    have hle := (List.pairwise_append.mp hlater).2.2 x
      (hlast ▸ List.mem_of_getLast? h.getLast?_chain) d (by simp)
    rw [Row.indexed, Row.indexed, hindexed, hindexed'] at hbefore
    exact absurd hbefore (not_lt.mpr hle)

end LinearLog

/-! ### The row of the entity -/

def closeVersion (head v : Version) : Version :=
  if head.lifecycle = .tombstoned ∧ v.row.kid ≠ head.row.kid ∧ v.lifecycle = .current then
    { v with
      lifecycle := .superseded
      validTo := (truthy head.row.observedAt).or head.row.indexedAt }
  else v

lemma closeOpen_eq_map (head : Version) (vs : List Version) :
    closeOpen head vs = vs.map (closeVersion head) := by
  by_cases hhead : head.lifecycle = .tombstoned
  · rw [closeOpen, if_pos hhead]
    refine List.map_congr_left fun v _ => ?_
    simp [closeVersion, hhead]
  · have hsame : closeVersion head = id := by
      funext v
      simp [closeVersion, hhead]
    rw [closeOpen, if_neg hhead, hsame, List.map_id]

@[simp] lemma closeVersion_kid (head v : Version) : (closeVersion head v).row.kid = v.row.kid := by
  rw [closeVersion]
  split <;> rfl

lemma nodup_entities {lines : List Line} {index : List RegistryRow}
    (h : compactRegistryIndex (some lines) = .ok index) :
    (index.map RegistryRow.entityId).Nodup := by
  simp only [compactRegistryIndex, bind_eq_ok, pure, Except.pure, Except.ok.injEq] at h
  obtain ⟨rows, -, compacted, hcompacted, rfl⟩ := h
  have hentities : compacted.map RegistryRow.entityId =
      (byEntity (derivedVersions (byKnowledgeId rows))).map Prod.fst := by
    have hrel := forall₂_of_mapM hcompacted
    clear hcompacted
    generalize byEntity (derivedVersions (byKnowledgeId rows)) = groups at hrel
    induction hrel with
    | nil => rfl
    | cons hrow _ ih =>
      obtain ⟨-, -, hentity, -⟩ := compactEntity_eq_ok hrow
      rw [List.map_cons, List.map_cons, hentity, ih]
  refine ((sortBy_perm RegistryRow.entityId compacted).map _).nodup_iff.mpr ?_
  rw [hentities, byEntity_eq]
  exact Dict.nodup_accumulate _ _ _

/-- What the index should say of an entity with the history, `ended` being what it should say of
the end of a version with a follower. -/
structure Reports (ended : Handling → Option String → Prop) (h : VersionHistory)
    (row : RegistryRow) : Prop where
  head : ∃ z, h.versions.getLast? = some z ∧ row.knowledgeId = z.kid
  listed : (row.versions.map RegistryVersion.knowledgeId).Perm (h.versions.map Handling.kid)
  superseded : ∀ a b, Follows h.versions a b → ∃ v ∈ row.versions, v.knowledgeId = a.kid ∧
    v.lifecycle = .superseded ∧ ended b v.validTo
  oneOpen : (row.versions.filter fun v => v.lifecycle = .current).length ≤ 1

/-- The index has one row for the entity, and it reports the history. -/
def ReportsHistory (ended : Handling → Option String → Prop) (e : String) (h : VersionHistory)
    (log : List Row) : Prop :=
  ∃ index row, compactRegistryIndex (some (log.map .row)) = .ok index ∧
    (index.filter fun r => r.entityId = e) = [row] ∧ Reports ended h row

section LinearLog

variable {e : String} {h : VersionHistory} {log : List Row} (hl : LinearLog e h log)
include hl

lemma LinearLog.closed {head : Version}
    (hhead : IsHead (entityVersions (Knowledge.attributed log) e) head) {a b : Handling}
    (hab : Follows h.versions a b) {v : Version}
    (hv : v ∈ entityVersions (Knowledge.attributed log) e) (hkid : v.row.kid = a.kid) :
    (closeVersion head v).lifecycle = .superseded ∧ EndedBy h b (closeVersion head v).validTo := by
  have hnodup := hl.distinct.of_map
  cases hl.versionState (List.mem_of_mem_filter hv) hab.mem.1 hkid with
  | followed b' hb' hstate hended =>
    obtain rfl := hb'.unique hab hnodup
    have hkept : closeVersion head v = v := by simp [closeVersion, hstate]
    rw [hkept]
    exact ⟨hstate, hended⟩
  | last hlast => exact absurd hlast (hab.not_last hnodup)
  | leftOpen d hd ha hop hstate =>
    -- the follower is the tombstone, and it is the head
    obtain rfl : d = b := by
      have hlast : Follows h.versions a d := by
        rw [hd, ha]
        exact follows_concat.mpr (.inr ⟨h.getLast?_chain, rfl⟩)
      exact hlast.unique hab hnodup
    have hlast : h.versions.getLast? = some d := by simp [hd]
    have hheadkid := hl.head_kid hhead hlast
    have htomb := (hl.last_state hlast hhead.mem hheadkid).1
    rw [if_pos hop] at htomb
    have hne : v.row.kid ≠ head.row.kid := by
      rw [hkid, hheadkid]
      intro heq
      obtain rfl := List.inj_on_of_nodup_map hl.distinct hab.mem.1 hab.mem.2 heq
      exact hab.not_last hnodup hlast
    obtain ⟨kv, hkv, hrow, -⟩ := exists_row_of_mem_versions (List.mem_of_mem_filter hhead.mem)
    have hkey : kv.1 = d.kid := by rw [← kid_of_mem hkv, ← hrow, hheadkid]
    rw [closeVersion, if_pos ⟨htomb, hne, hstate⟩]
    exact ⟨rfl, hrow ▸ hl.endedBy_of_row hkv hab.mem.2 hkey rfl⟩

lemma LinearLog.reports : ReportsHistory (EndedBy h) e h log := by
  have hrows := iterRegistryRows_rows log
  obtain ⟨z, hz⟩ : ∃ z, h.versions.getLast? = some z := by
    obtain ⟨settled, again, z, hv, -⟩ := h.shape
    exact ⟨z, by simp [hv]⟩
  obtain ⟨vz, hvz, -⟩ := hl.exists_version (List.mem_of_getLast? hz)
  rcases registryRow_eq hrows hl.stamped e with ⟨hnil, -⟩ |
    ⟨row, head, hrow, hhead, hentity, hkid, -, hversions⟩
  · exact absurd hvz (by simp [hnil])
  simp only [registryRow, Except.map] at hrow
  cases hindex : compactRegistryIndex (some (log.map .row)) with
  | error err => simp [hindex] at hrow
  | ok index =>
    simp only [hindex, Except.ok.injEq] at hrow
    have hheadkid := hl.head_kid hhead hz
    have hperm := byIndexed_perm (entityVersions (Knowledge.attributed log) e)
    rw [closeOpen_eq_map, List.map_map] at hversions
    have hkids : row.versions.map RegistryVersion.knowledgeId =
        (byIndexed (entityVersions (Knowledge.attributed log) e)).map fun v => v.row.kid := by
      rw [hversions, List.map_map]
      exact List.map_congr_left fun v _ => closeVersion_kid head v
    have hlisted : (row.versions.map RegistryVersion.knowledgeId).Perm
        (h.versions.map Handling.kid) := hkids ▸ (hperm.map _).trans hl.kids_perm
    refine ⟨index, row, hindex, ?_, ⟨z, hz, by rw [hkid, hheadkid]⟩, hlisted, ?_, ?_⟩
    · rw [← hentity]
      exact filter_key_eq (nodup_entities hindex) (List.mem_of_find?_eq_some hrow)
    · intro a b hab
      obtain ⟨v, hv, hvkid⟩ := hl.exists_version hab.mem.1
      obtain ⟨hstate, hended⟩ := hl.closed hhead hab hv hvkid
      refine ⟨(closeVersion head v).listed, ?_, ?_, hstate, hended⟩
      · rw [hversions]
        exact List.mem_map.mpr ⟨v, hperm.mem_iff.mpr hv, rfl⟩
      · exact (closeVersion_kid head v).trans hvkid
    · -- an open version is the last one, and no version is listed twice
      have hopen : ∀ v ∈ row.versions.filter (fun v => v.lifecycle = .current),
          v.knowledgeId = z.kid := by
        intro w hw
        obtain ⟨hw, hcurrent⟩ := List.mem_filter.mp hw
        rw [hversions] at hw
        obtain ⟨v, hv, rfl⟩ := List.mem_map.mp hw
        obtain ⟨x, hx, hvkid, -⟩ := hl.exists_handling (hperm.mem_iff.mp hv)
        rcases follows_or_last hx with ⟨b, hb⟩ | hlast
        · have hstate := (hl.closed hhead hb (hperm.mem_iff.mp hv) hvkid).1
          have hcurrent' : (closeVersion head v).lifecycle = .current := of_decide_eq_true hcurrent
          rw [hstate] at hcurrent'
          cases hcurrent'
        · obtain rfl := Option.some.inj (hlast.symm.trans hz)
          exact (closeVersion_kid head v).trans hvkid
      have hnodup : ((row.versions.filter fun v => v.lifecycle = .current).map
          RegistryVersion.knowledgeId).Nodup :=
        (hlisted.nodup_iff.mpr hl.distinct).sublist (List.filter_sublist.map _)
      have hsame := List.eq_replicate_iff.mpr ⟨rfl, List.forall_mem_map.mpr hopen⟩
      rw [hsame] at hnodup
      have hone := List.nodup_replicate.mp hnodup
      rwa [List.length_map] at hone

end LinearLog

/-- The index has one row for an entity with a linear history: its head is the last version, it
lists every version once, each version with a follower is superseded and ends when the follower was
observed, or, where the follower does not say so, at a stamp of the history, and at most one
version is open. -/
theorem history_compacted {e : String} {h : VersionHistory} {log : List Row}
    (hl : LinearLog e h log) : ReportsHistory (EndedBy h) e h log :=
  hl.reports

/-- A record of a specification, as indexed at `t`. -/
def specRecord (knowledgeId t observedAt : String) (supersedes : Option String) :
    RegistryRecord where
  knowledgeId := knowledgeId
  entityId := "spec"
  sourceType := "spec"
  logicalLocator := "specs/loop.json"
  validFrom := observedAt
  observedAt := observedAt
  indexedAt := t
  supersedes := supersedes

/-- A specification is registered, revised and retracted. -/
def specRetracted : VersionHistory where
  first := ⟨specRecord "v1" "2026-09-01T08:00:05" "2026-09-01T08:00:00" none, "upsert", ""⟩
  later := [⟨specRecord "v2" "2026-09-02T08:00:05" "2026-09-02T08:00:00" (some "v1"), "supersede",
    ""⟩]
  deletion := some
    ⟨specRecord "gone" "2026-09-03T08:00:05" "2026-09-03T08:00:00" none, "delete", "retracted"⟩

/-- The lines of the retracted specification, and behind them the line of a flag. -/
def specLog : List Row :=
  registryLog specRetracted.handlings ++
    registryLog [⟨flagRecord "raised" "2026-09-03T09:00:05", "upsert", ""⟩]

theorem history_compacted_specRetracted :
    ReportsHistory (EndedBy specRetracted) "spec" specRetracted specLog :=
  history_compacted {
    entity := by decide
    entity_ne := by decide
    upsert := rfl
    supersede := by decide
    delete := by decide
    fresh := by decide
    linked := by decide
    deleted := fun d hd => by
      obtain rfl := Option.some.inj hd
      exact .inl rfl
    distinct := by decide
    kid_ne := by decide
    later := by decide
    lines := by decide
    others := by decide }

/-- A specification is registered, and a revision replaces it that was not observed. -/
def specUnobserved : VersionHistory where
  first := ⟨specRecord "v1" "2026-09-01T08:00:05" "2026-09-01T08:00:00" none, "upsert", ""⟩
  later := [⟨specRecord "v2" "2026-09-02T08:00:05" "" (some "v1"), "supersede", ""⟩]

lemma specUnobserved_linear :
    LinearLog "spec" specUnobserved (registryLog specUnobserved.handlings) where
  entity := by decide
  entity_ne := by decide
  upsert := rfl
  supersede := by decide
  delete := by decide
  fresh := by decide
  linked := by decide
  deleted := fun d hd => by cases hd
  distinct := by decide
  kid_ne := by decide
  later := by decide
  lines := by decide
  others := by decide

/-- The first version does not end at the empty observation of the revision. -/
theorem unobserved_revision :
    LinearLog "spec" specUnobserved (registryLog specUnobserved.handlings) ∧
      ¬ ReportsHistory (fun b validTo => validTo = some b.record.observedAt) "spec" specUnobserved
        (registryLog specUnobserved.handlings) := by
  refine ⟨specUnobserved_linear, ?_⟩
  rintro ⟨index, row, hindex, hone, hclaimed⟩
  obtain ⟨index', row', hindex', hone', hreports⟩ := specUnobserved_linear.reports
  obtain rfl := Except.ok.inj (hindex.symm.trans hindex')
  obtain rfl : row = row' := List.singleton_inj.mp (hone.symm.trans hone')
  have hfollows : Follows specUnobserved.versions specUnobserved.first specUnobserved.last :=
    ⟨[], [], rfl⟩
  obtain ⟨v, hv, hvkid, -, hend⟩ := hclaimed.superseded _ _ hfollows
  obtain ⟨w, hw, hwkid, -, t, ht, hstamp⟩ := hreports.superseded _ _ hfollows
  have hnodup := hreports.listed.nodup_iff.mpr specUnobserved_linear.distinct
  obtain rfl := List.inj_on_of_nodup_map hnodup hv hw (hvkid.trans hwkid.symm)
  obtain ⟨y, hy, hty⟩ := hstamp
  have hempty : t = "" := Option.some.inj (ht.symm.trans hend)
  have hstamps : ∀ y ∈ specUnobserved.handlings, y.record.indexedAt ≠ "" := by decide
  exact hstamps y hy (hty ▸ hempty)

end AgenticDynamics.Knowledge
