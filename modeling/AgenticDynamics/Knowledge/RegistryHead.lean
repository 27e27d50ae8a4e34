import AgenticDynamics.Knowledge.Tombstones

/-!
# The two head resolvers

The producers look up the head of an entity in the log itself: of the versions that no line of the
entity replaces the one whose first line comes last. Compaction looks for the newest one. Both are
compared on logs whose lines are consistent with each other.
-/

namespace AgenticDynamics.Knowledge

open Python StableSort

/-! ### The lookup -/

structure RegistryHead where
  knowledgeId : String
  fingerprint : String
deriving DecidableEq

def fingerprintFromReason (mark : String) (reason : Option String) : String :=
  let text := reason.getD ""
  if startsWith text mark then String.ofList (text.toList.drop mark.toList.length) else ""

/-- What a pass over the file has found so far. -/
structure HeadScan where
  order : List String := []
  lines : Dict Row := []
  superseded : List String := []

/-- One line of the pass; a line of another entity or without an id says nothing. -/
def HeadScan.step (entityId : String) (scan : HeadScan) : Line → HeadScan
  | .row r =>
    if r.entityId = some entityId then
      match truthy r.knowledgeId with
      | none     => scan
      | some kid =>
        { order := if (scan.lines.get? kid).isSome then scan.order else scan.order ++ [kid]
          lines := scan.lines.set kid r
          superseded := scan.superseded ++ (truthy r.supersedes).toList ++
            if r.lifecycleState = some "superseded" then [kid] else [] }
    else scan
  | _ => scan

/-- The head of an entity in a file; none stands for a file that cannot be read. -/
def registryHead (entityId mark : String) : Option (List Line) → Option RegistryHead
  | none       => none
  | some lines =>
    let scan := lines.foldl (HeadScan.step entityId) {}
    (scan.order.reverse.find? fun kid => kid ∉ scan.superseded).map fun kid =>
      ⟨kid, fingerprintFromReason mark ((scan.lines.get? kid).bind Row.reason)⟩

/-! ### What the lookup finds -/

def entityRows (rows : List Row) (e : String) : List Row := rows.filter fun r => r.entity = e

/-- A line of the entity says that the version is replaced. -/
def Replaced (rows : List Row) (e k : String) : Prop :=
  ∃ r ∈ entityRows rows e,
    truthy r.supersedes = some k ∨ (r.lifecycleState = some "superseded" ∧ r.kid = k)

instance (rows : List Row) (e k : String) : Decidable (Replaced rows e k) :=
  inferInstanceAs (Decidable (∃ r ∈ entityRows rows e, _))

/-- What a pass has found when it has seen these rows of the entity. -/
structure Found (rows : List Row) (scan : HeadScan) : Prop where
  order : scan.order = firsts (rows.map Row.kid)
  lines : ∀ k, (scan.lines.get? k).isSome ↔ k ∈ rows.map Row.kid
  superseded : ∀ k, k ∈ scan.superseded ↔
    ∃ r ∈ rows, truthy r.supersedes = some k ∨ (r.lifecycleState = some "superseded" ∧ r.kid = k)

lemma found_nil : Found [] {} :=
  ⟨rfl, fun k => by simp [Dict.get?], fun k => by simp⟩

lemma Found.step {e : String} {seen : List Row} {scan : HeadScan} (h : Found seen scan) {r : Row}
    (hentity : r.entityId = some e) (hkid : r.kid ≠ "") :
    Found (seen ++ [r]) (HeadScan.step e scan (.row r)) := by
  have htruthy : truthy r.knowledgeId = some r.kid := by
    cases hk : r.knowledgeId with
    | none => simp [Row.kid, hk] at hkid
    | some k => simpa [truthy, Row.kid, hk] using hkid
  have hstep : HeadScan.step e scan (.row r) =
      { order := if (scan.lines.get? r.kid).isSome then scan.order else scan.order ++ [r.kid]
        lines := scan.lines.set r.kid r
        superseded := scan.superseded ++ (truthy r.supersedes).toList ++
          if r.lifecycleState = some "superseded" then [r.kid] else [] } := by
    simp only [HeadScan.step, if_pos hentity, htruthy]
  rw [hstep]
  refine ⟨?_, fun k => ?_, fun k => ?_⟩
  · rw [List.map_append, List.map_cons, List.map_nil, firsts_concat]
    simp only [mem_firsts, h.lines, h.order]
  · rw [Dict.get?_set]
    by_cases hk : r.kid = k
    · simp [hk]
    · have hne : k ≠ r.kid := fun h => hk h.symm
      simp [hk, hne, h.lines]
  · have hsplit : (∃ r' ∈ seen ++ [r], truthy r'.supersedes = some k ∨
          (r'.lifecycleState = some "superseded" ∧ r'.kid = k)) ↔
        (∃ r' ∈ seen, truthy r'.supersedes = some k ∨
          (r'.lifecycleState = some "superseded" ∧ r'.kid = k)) ∨
        (truthy r.supersedes = some k ∨ (r.lifecycleState = some "superseded" ∧ r.kid = k)) := by
      simp only [List.mem_append, List.mem_singleton, or_and_right, exists_or, exists_eq_left]
    rw [hsplit, ← h.superseded]
    by_cases hmarked : r.lifecycleState = some "superseded"
    · simp [hmarked, eq_comm]
    · simp [hmarked]

lemma found_rows {e : String} (he : e ≠ "") {lines : List Line} {rows : List Row}
    (hrows : iterRegistryRows lines = .ok rows) {seen : List Row} {scan : HeadScan}
    (h : Found seen scan) :
    Found (seen ++ entityRows rows e) (lines.foldl (HeadScan.step e) scan) := by
  induction lines generalizing rows seen scan with
  | nil =>
    simp only [iterRegistryRows, Except.ok.injEq] at hrows
    subst hrows
    simpa [entityRows] using h
  | cons line lines ih =>
    cases line with
    | blank => exact ih hrows h
    | damaged => exact ih hrows h
    | other t => simp [iterRegistryRows] at hrows
    | row r =>
      simp only [iterRegistryRows, bind_eq_ok, pure, Except.pure, Except.ok.injEq] at hrows
      obtain ⟨rest, hrest, rfl⟩ := hrows
      rw [List.foldl_cons]
      by_cases hread : r.entityId = some e ∧ r.kid ≠ ""
      · have hentity : r.entity = e := by simp [Row.entity, hread.1]
        have hattributed : r.Attributed := ⟨hread.2, hentity ▸ he⟩
        have hseen := ih hrest (h.step hread.1 hread.2)
        rw [if_pos hattributed]
        simpa [entityRows, hentity] using hseen
      · have hskip : HeadScan.step e scan (.row r) = scan := by
          by_cases hentity : r.entityId = some e
          · have hkid : r.kid = "" := by
              by_contra hne
              exact hread ⟨hentity, hne⟩
            have hnone : truthy r.knowledgeId = none := by
              cases hk : r.knowledgeId with
              | none => rfl
              | some k =>
                have hempty : k = "" := by simpa [Row.kid, hk] using hkid
                rw [hempty]
                rfl
            simp [HeadScan.step, hentity, hnone]
          · simp [HeadScan.step, hentity]
        rw [hskip]
        have hseen := ih hrest h
        by_cases hattributed : r.Attributed
        · have hentity : r.entity ≠ e := by
            intro heq
            refine hread ⟨?_, hattributed.1⟩
            cases hid : r.entityId with
            | none => exact absurd (by simpa [Row.entity, hid] using heq) he.symm
            | some e' => simpa [Row.entity, hid] using heq
          rw [if_pos hattributed]
          simpa [entityRows, hentity] using hseen
        · rwa [if_neg hattributed]

lemma registryHead_eq {e : String} (he : e ≠ "") {lines : List Line} {rows : List Row}
    (hrows : iterRegistryRows lines = .ok rows) (mark : String) :
    (registryHead e mark (some lines)).map RegistryHead.knowledgeId =
      ((firsts ((entityRows rows e).map Row.kid)).filter
        fun k => ¬ Replaced rows e k).getLast? := by
  have hfound : Found (entityRows rows e) (lines.foldl (HeadScan.step e) {}) :=
    found_rows he hrows found_nil
  have hlast : ∀ (p : String → Bool) (l : List String),
      l.reverse.find? p = (l.filter p).getLast? := by
    intro p l
    rw [← List.head?_filter, List.filter_reverse, List.head?_reverse]
  rw [registryHead, Option.map_map]
  simp only [hlast, hfound.order]
  rw [show RegistryHead.knowledgeId ∘ _ = id from rfl, Option.map_id, id_eq]
  congr 1
  refine List.filter_congr fun k _ => ?_
  rw [decide_eq_decide, hfound.superseded, Replaced]

/-! ### Logs whose lines are consistent -/

/-- Every row has its stamp and the lines of a version do not go back in time; a version is of one
entity, names one predecessor and one of its own entity; and what is marked as superseded is named
by some row. -/
structure Consistent (rows : List Row) : Prop where
  stamped : ∀ r ∈ rows, r.indexedAt.isSome
  inOrder : InOrder rows
  oneEntity : ∀ r ∈ rows, ∀ r' ∈ rows, r.kid = r'.kid → r.entity = r'.entity
  onePointer : ∀ r ∈ rows, ∀ r' ∈ rows, r.kid = r'.kid →
    ∀ p ∈ r.supersedes, ∀ p' ∈ r'.supersedes, p = p'
  ownEntity : ∀ r ∈ rows, ∀ r' ∈ rows, truthy r.supersedes = some r'.kid → r.entity = r'.entity
  marked : ∀ r ∈ rows, r.lifecycleState = some "superseded" →
    ∃ r' ∈ rows, truthy r'.supersedes = some r.kid

section Consistent

variable {rows : List Row} {e : String}

lemma mem_of_truthy {v : Option String} {k : String} (h : truthy v = some k) : v = some k :=
  (Option.filter_eq_some_iff.mp h).1

lemma Consistent.lastPointer (h : Consistent rows) {r : Row} (hr : r ∈ rows) {p : String}
    (hp : r.supersedes = some p) : lastSaid Row.supersedes rows r.kid = some p := by
  have hmem : p ∈ (linesOf rows r.kid).filterMap Row.supersedes :=
    List.mem_filterMap.mpr ⟨r, List.mem_filter.mpr ⟨hr, by simp⟩, hp⟩
  rw [lastSaid]
  cases hlast : ((linesOf rows r.kid).filterMap Row.supersedes).getLast? with
  | none => simp [List.getLast?_eq_none_iff.mp hlast] at hmem
  | some p' =>
    obtain ⟨r', hr', hp'⟩ := List.mem_filterMap.mp (List.mem_of_getLast? hlast)
    have hkid : r'.kid = r.kid := by simpa using List.of_mem_filter hr'
    rw [h.onePointer r' (List.mem_of_mem_filter hr') r hr hkid p' hp' p hp]

lemma Consistent.replaced_iff (h : Consistent rows) {k : String}
    (hk : k ∈ (entityRows rows e).map Row.kid) : Replaced rows e k ↔ Named rows k := by
  constructor
  · rintro ⟨r, hr, hs | ⟨hmarked, hkid⟩⟩
    · have hmem := List.mem_of_mem_filter hr
      refine ⟨r, hmem, ?_⟩
      rw [h.lastPointer hmem (mem_of_truthy hs)]
      exact mem_of_truthy hs ▸ hs
    · obtain ⟨r', hr', hs⟩ := h.marked r (List.mem_of_mem_filter hr) hmarked
      rw [hkid] at hs
      refine ⟨r', hr', ?_⟩
      rw [h.lastPointer hr' (mem_of_truthy hs)]
      exact mem_of_truthy hs ▸ hs
  · rintro ⟨r, hr, hs⟩
    obtain ⟨r', hr', hp⟩ := List.mem_filterMap.mp (List.mem_of_getLast? (mem_of_truthy hs))
    obtain ⟨r₀, hr₀, rfl⟩ := List.mem_map.mp hk
    have hmem := List.mem_of_mem_filter hr'
    have hs' : truthy r'.supersedes = some r₀.kid := by
      rw [hp]
      exact mem_of_truthy hs ▸ hs
    have hentity := h.ownEntity r' hmem r₀ (List.mem_of_mem_filter hr₀) hs'
    have he : r₀.entity = e := by simpa using List.of_mem_filter hr₀
    exact ⟨r', List.mem_filter.mpr ⟨hmem, by simp [hentity, he]⟩, .inl hs'⟩

lemma Consistent.entity_eq (h : Consistent rows) {v : Version} (hv : v ∈ versions rows) {r : Row}
    (hr : r ∈ rows) (hkid : r.kid = v.row.kid) : v.row.entity = r.entity := by
  obtain ⟨kv, hkv, hrow, -⟩ := exists_row_of_mem_versions hv
  rw [hrow] at hkid ⊢
  refine entity_of_mem hkv fun r' hr' hkid' => h.oneEntity r' hr' r hr ?_
  rw [hkid', hkid, kid_of_mem hkv]

lemma Consistent.kids (h : Consistent rows) :
    (entityVersions rows e).map (fun v => v.row.kid) =
      firsts ((entityRows rows e).map Row.kid) := by
  have hversions : (entityVersions rows e).map (fun v => v.row.kid) =
      ((versions rows).map fun v => v.row.kid).filter
        fun k => k ∈ (entityRows rows e).map Row.kid := by
    rw [List.filter_map]
    refine congrArg _ (List.filter_congr fun v hv => ?_)
    obtain ⟨r, hr, hkid⟩ := exists_line hv
    have hentity := h.entity_eq hv hr hkid
    simp only [Function.comp_apply, decide_eq_decide, List.mem_map, hentity]
    constructor
    · intro he
      exact ⟨r, List.mem_filter.mpr ⟨hr, by simpa using he⟩, hkid⟩
    · rintro ⟨r', hr', hkid'⟩
      have he : r'.entity = e := by simpa using List.of_mem_filter hr'
      rw [← he]
      exact h.oneEntity r hr r' (List.mem_of_mem_filter hr') (hkid.trans hkid'.symm)
  have hrows : (rows.map Row.kid).filter (fun k => k ∈ (entityRows rows e).map Row.kid) =
      (entityRows rows e).map Row.kid := by
    rw [List.filter_map]
    refine congrArg _ (List.filter_congr fun r hr => ?_)
    simp only [Function.comp_apply, decide_eq_decide, List.mem_map]
    constructor
    · rintro ⟨r', hr', hkid⟩
      have he : r'.entity = e := by simpa using List.of_mem_filter hr'
      rw [← he]
      exact h.oneEntity r hr r' (List.mem_of_mem_filter hr') hkid.symm
    · intro he
      exact ⟨r, List.mem_filter.mpr ⟨hr, by simpa using he⟩, rfl⟩
  rw [hversions, kids_versions, filter_firsts, hrows]

end Consistent

/-! ### When the resolvers agree -/

section Agree

variable {vs : List Version} {head s : Version}

def notSuperseded (vs : List Version) : List Version :=
  vs.filter fun v => v.lifecycle ≠ .superseded

lemma newest_unique (hnodup : vs.Nodup) {state : Lifecycle} {v w : Version}
    (hv : Newest (inState state vs) v) (hw : Newest (inState state vs) w) : v = w := by
  have hv' := (getLast?_filter_sortBy hnodup).mpr hv
  rw [(getLast?_filter_sortBy hnodup).mpr hw] at hv'
  exact (Option.some.inj hv').symm

lemma newest_of_last (hlast : (notSuperseded vs).getLast? = some s)
    (hmax : ∀ v ∈ notSuperseded vs, v.row.indexed ≤ s.row.indexed) :
    Newest (inState s.lifecycle vs) s := by
  have hmem := List.mem_of_getLast? hlast
  have hstate : s.lifecycle ≠ .superseded := by simpa using List.of_mem_filter hmem
  have hfilter : inState s.lifecycle vs =
      (notSuperseded vs).filter fun v => v.lifecycle = s.lifecycle := by
    rw [inState, notSuperseded, List.filter_filter]
    refine List.filter_congr fun v _ => ?_
    by_cases hv : v.lifecycle = s.lifecycle <;> simp [hv, hstate]
  obtain ⟨init, hinit⟩ := List.getLast?_eq_some_iff.mp hlast
  rw [hfilter]
  refine latest_of_getLast ?_ fun v hv => hmax v (List.mem_of_mem_filter hv)
  simp [hinit, List.filter_append]

lemma IsHead.last_iff (hnodup : vs.Nodup) (h : IsHead vs head) :
    (notSuperseded vs).getLast? = some head ↔
      ∃ s, (notSuperseded vs).getLast? = some s ∧ ∀ v ∈ notSuperseded vs,
        v.row.indexed ≤ s.row.indexed ∧
          (v.lifecycle = .tombstoned → s.lifecycle ≠ .tombstoned →
            v.row.indexed < s.row.indexed) := by
  have hmem : ∀ {v}, v ∈ notSuperseded vs ↔ v ∈ vs ∧ v.lifecycle ≠ .superseded := by
    simp [notSuperseded]
  constructor
  · intro hlast
    refine ⟨head, hlast, fun v hv => ?_⟩
    obtain ⟨hvs, hvstate⟩ := hmem.mp hv
    obtain ⟨-, hstate⟩ := hmem.mp (List.mem_of_getLast? hlast)
    cases hhead : head.lifecycle with
    | superseded => exact absurd hhead hstate
    | tombstoned =>
      obtain ⟨hnewest, hlive⟩ := h.tombstone hhead
      refine ⟨?_, fun _ hne => absurd rfl hne⟩
      cases hv' : v.lifecycle with
      | superseded => exact absurd hv' hvstate
      | tombstoned => exact hnewest.le (mem_inState.mpr ⟨hvs, hv'⟩)
      | current => exact hlive v (mem_inState.mpr ⟨hvs, hv'⟩)
    | current =>
      obtain ⟨hnewest, htomb⟩ := h.live hhead
      have hbefore : v.lifecycle = .tombstoned → v.row.indexed < head.row.indexed := fun hv' =>
        htomb v (mem_inState.mpr ⟨hvs, hv'⟩)
      refine ⟨?_, fun hv' _ => hbefore hv'⟩
      cases hv' : v.lifecycle with
      | superseded => exact absurd hv' hvstate
      | tombstoned => exact (hbefore hv').le
      | current => exact hnewest.le (mem_inState.mpr ⟨hvs, hv'⟩)
  · rintro ⟨s, hlast, hmax⟩
    obtain ⟨hsvs, hsstate⟩ := hmem.mp (List.mem_of_getLast? hlast)
    have hnewest := newest_of_last hlast fun v hv => (hmax v hv).1
    rw [hlast]
    cases hs : s.lifecycle with
    | superseded => exact absurd hs hsstate
    | tombstoned =>
      rw [hs] at hnewest
      cases hhead : head.lifecycle with
      | superseded =>
        have hnil := (h.superseded hhead).1
        exact absurd hnewest.mem (by simp [hnil])
      | tombstoned => rw [newest_unique hnodup hnewest (h.tombstone hhead).1]
      | current =>
        have hheadmem : head ∈ notSuperseded vs := hmem.mpr ⟨h.mem, by simp [hhead]⟩
        exact absurd ((h.live hhead).2 s hnewest.mem) (not_lt.mpr (hmax head hheadmem).1)
    | current =>
      rw [hs] at hnewest
      cases hhead : head.lifecycle with
      | superseded =>
        have hnil := (h.superseded hhead).2
        exact absurd hnewest.mem (by simp [hnil])
      | tombstoned =>
        have hheadmem : head ∈ notSuperseded vs := hmem.mpr ⟨h.mem, by simp [hhead]⟩
        exact absurd ((h.tombstone hhead).2 s hnewest.mem)
          (not_le.mpr ((hmax head hheadmem).2 hhead (by simp [hs])))
      | current => rw [newest_unique hnodup hnewest (h.live hhead).1]

end Agree

/-- The versions of an entity that no version names, in the order of their first lines. -/
def survivors (rows : List Row) (e : String) : List String :=
  (firsts ((entityRows rows e).map Row.kid)).filter fun k => ¬ Named rows k

/-- The entity has no rows, or a version that none names; and of these the one whose first line
comes last has a last line as new as any of theirs, and newer than the deletions if it is open. -/
def LastIsNewest (rows : List Row) (e : String) : Prop :=
  entityRows rows e = [] ∨ ∃ s, (survivors rows e).getLast? = some s ∧
    ∀ k ∈ survivors rows e, lastStamp rows k ≤ lastStamp rows s ∧
      (Deleted rows k → ¬ Deleted rows s → lastStamp rows k < lastStamp rows s)

/-- The lookup and the index have the same head for the entity, or both have none. -/
def SameHead (e mark : String) (lines : List Line) : Prop :=
  ∃ row, registryRow e (some lines) = .ok row ∧
    (registryHead e mark (some lines)).map RegistryHead.knowledgeId =
      row.map RegistryRow.knowledgeId

section Resolvers

variable {rows : List Row} {e : String}

lemma Consistent.survivors_eq (h : Consistent rows) :
    survivors rows e = (notSuperseded (entityVersions rows e)).map fun v => v.row.kid := by
  rw [survivors, ← h.kids, notSuperseded, List.filter_map]
  refine congrArg _ (List.filter_congr fun v hv => ?_)
  have hstate := (lifecycle_iff h.inOrder (List.mem_of_mem_filter hv)).1
  simp only [Function.comp_apply, hstate, ne_eq]

lemma Consistent.last_newest_iff (h : Consistent rows) :
    (∃ s, (survivors rows e).getLast? = some s ∧
      ∀ k ∈ survivors rows e, lastStamp rows k ≤ lastStamp rows s ∧
        (Deleted rows k → ¬ Deleted rows s → lastStamp rows k < lastStamp rows s)) ↔
      ∃ s, (notSuperseded (entityVersions rows e)).getLast? = some s ∧
        ∀ v ∈ notSuperseded (entityVersions rows e), v.row.indexed ≤ s.row.indexed ∧
          (v.lifecycle = .tombstoned → s.lifecycle ≠ .tombstoned →
            v.row.indexed < s.row.indexed) := by
  have hspec : ∀ v ∈ notSuperseded (entityVersions rows e),
      v.row.indexed = lastStamp rows v.row.kid ∧
        (v.lifecycle = .tombstoned ↔ Deleted rows v.row.kid) := by
    intro v hv
    have hversion := List.mem_of_mem_filter (List.mem_of_mem_filter hv)
    have hlife := lifecycle_iff h.inOrder hversion
    have hnot : ¬ Named rows v.row.kid := fun hn => by
      simpa [hlife.1.mpr hn] using List.of_mem_filter hv
    exact ⟨indexed_eq h.inOrder hversion, by simp [hlife.2.1, hnot]⟩
  have hpair : ∀ s ∈ notSuperseded (entityVersions rows e),
      (∀ k ∈ survivors rows e, lastStamp rows k ≤ lastStamp rows s.row.kid ∧
        (Deleted rows k → ¬ Deleted rows s.row.kid →
          lastStamp rows k < lastStamp rows s.row.kid)) ↔
      ∀ v ∈ notSuperseded (entityVersions rows e), v.row.indexed ≤ s.row.indexed ∧
        (v.lifecycle = .tombstoned → s.lifecycle ≠ .tombstoned →
          v.row.indexed < s.row.indexed) := by
    intro s hs
    obtain ⟨hstamp, hdeleted⟩ := hspec s hs
    rw [h.survivors_eq, List.forall_mem_map]
    refine forall₂_congr fun v hv => ?_
    obtain ⟨hstamp', hdeleted'⟩ := hspec v hv
    rw [hstamp, hstamp', hdeleted', ne_eq, hdeleted]
  constructor
  · rintro ⟨k, hlast, hmax⟩
    rw [h.survivors_eq, List.getLast?_map] at hlast
    obtain ⟨s, hs, rfl⟩ := Option.map_eq_some_iff.mp hlast
    exact ⟨s, hs, (hpair s (List.mem_of_getLast? hs)).mp hmax⟩
  · rintro ⟨s, hs, hmax⟩
    refine ⟨s.row.kid, ?_, (hpair s (List.mem_of_getLast? hs)).mpr hmax⟩
    rw [h.survivors_eq, List.getLast?_map, hs]
    rfl

lemma Consistent.registryHead_eq (h : Consistent rows) (he : e ≠ "") {lines : List Line}
    (hrows : iterRegistryRows lines = .ok rows) (mark : String) :
    (registryHead e mark (some lines)).map RegistryHead.knowledgeId =
      (notSuperseded (entityVersions rows e)).getLast?.map fun v => v.row.kid := by
  rw [Knowledge.registryHead_eq he hrows, ← List.getLast?_map, ← h.survivors_eq, survivors]
  refine congrArg _ (List.filter_congr fun k hk => ?_)
  rw [decide_eq_decide, h.replaced_iff (mem_firsts.mp hk)]

lemma Consistent.entityVersions_eq_nil (h : Consistent rows) :
    entityVersions rows e = [] ↔ entityRows rows e = [] := by
  have hlength := congrArg (fun l : List String => l = []) (h.kids (e := e))
  simp only [List.map_eq_nil_iff, eq_iff_iff] at hlength
  rw [hlength]
  constructor
  · intro hnil
    refine List.eq_nil_iff_forall_not_mem.mpr fun r hr => ?_
    have hk : r.kid ∈ firsts ((entityRows rows e).map Row.kid) :=
      mem_firsts.mpr (List.mem_map_of_mem hr)
    simp [hnil] at hk
  · intro hnil
    rw [hnil]
    rfl

lemma Consistent.sameHead_iff (h : Consistent rows) (he : e ≠ "") {lines : List Line}
    (hrows : iterRegistryRows lines = .ok rows) (mark : String) :
    SameHead e mark lines ↔ LastIsNewest rows e := by
  rw [SameHead, LastIsNewest, h.registryHead_eq he hrows mark, h.last_newest_iff,
    ← h.entityVersions_eq_nil]
  have hnodup := nodup_entityVersions rows e
  rcases registryRow_eq hrows h.stamped e with ⟨hnil, hnone⟩ |
    ⟨row, head, hrow, hhead, -, hkid, -, -⟩
  · simp [hnone, hnil, notSuperseded]
  · have hne : entityVersions rows e ≠ [] := List.ne_nil_of_mem hhead.mem
    rw [← hhead.last_iff hnodup]
    simp only [hrow, Except.ok.injEq, exists_eq_left', Option.map_some, hkid, hne, false_or]
    constructor
    · intro hsame
      obtain ⟨s, hs, heq⟩ := Option.map_eq_some_iff.mp hsame
      have hkids : ((versions rows).map fun v => v.row.kid).Nodup := by
        rw [kids_versions]
        exact nodup_firsts _
      have hmem := List.mem_of_mem_filter (List.mem_of_mem_filter (List.mem_of_getLast? hs))
      rw [hs, List.inj_on_of_nodup_map hkids hmem (List.mem_of_mem_filter hhead.mem) heq]
    · intro hlast
      rw [hlast]
      rfl

end Resolvers

lemma consistent_flagRedelivered : Consistent (attributed (registryLog flagRedelivered)) where
  stamped := by decide
  inOrder := flagRedelivered_oneEntity.inOrder
  oneEntity := by decide
  onePointer := by decide
  ownEntity := by decide
  marked := by decide

end AgenticDynamics.Knowledge
