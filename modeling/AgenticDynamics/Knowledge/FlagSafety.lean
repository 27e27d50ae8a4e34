import AgenticDynamics.Knowledge.Tombstones
import AgenticDynamics.Knowledge.RecordRoundTrip
import AgenticDynamics.Knowledge.ActuationSafety
import AgenticDynamics.Knowledge.FlagAutoClear

/-!
# Which flags are cleared

The rule goes by the order in which events are handled. It agrees with the order in which they
were observed as long as no healthy observation meets a flag that is not earlier, and no tombstone
of the rule comes after a flag that is.
-/

namespace AgenticDynamics.Knowledge

open Python Runs

section Flags

variable {τ : Type} [LinearOrder τ] {instant : String → τ} {host : Host} {g : RegistryGroup}
  {h : HandlerCall}

/-! ### What one call changes -/

@[simp] lemma RegistryGroup.remember_lines {consumer : String} {flags : Dict KnowledgeRecord} :
    (g.remember consumer flags).lines = g.lines := rfl

@[simp] lemma RegistryGroup.remember_cleared {consumer : String} {flags : Dict KnowledgeRecord} :
    (g.remember consumer flags).cleared = g.cleared := rfl

@[simp] lemma RegistryGroup.remember_handled {consumer : String} {flags : Dict KnowledgeRecord} :
    (g.remember consumer flags).handled = g.handled := rfl

@[simp] lemma RegistryGroup.remember_redis {consumer : String} {flags : Dict KnowledgeRecord} :
    (g.remember consumer flags).redis = g.redis := rfl

@[simp] lemma RegistryGroup.remember_flags {consumer consumer' : String}
    {flags : Dict KnowledgeRecord} :
    (g.remember consumer flags).flags consumer' =
      if consumer' = consumer then flags else g.flags consumer' := by
  by_cases hconsumer : consumer' = consumer
  · subst hconsumer
    simp [RegistryGroup.remember]
  · simp [RegistryGroup.remember, hconsumer]

/-- The rule goes as far as publishing a tombstone for a flag. -/
structure Attempts (g : RegistryGroup) (h : HandlerCall) (flag : KnowledgeRecord) : Prop where
  healthy : h.record.subjectStatus = "healthy"
  subject : h.record.subjectId ≠ ""
  finds : Dict.get? h.record.subjectId (g.flags h.consumer) = some flag
  writes : h.environ "FINOPS_KB_WRITE" = some "1"
  artifact : h.artifactFailure = none

def HandlerCall.Publishes (h : HandlerCall) : Prop :=
  h.replies.hset.failure = none ∧ h.replies.xadd.Landed

instance (h : HandlerCall) : Decidable h.Publishes := inferInstanceAs (Decidable (_ ∧ _))

/-- The tombstone of a flag, as it is published. -/
def HandlerCall.clearance (host : Host) (h : HandlerCall) (flag : KnowledgeRecord) : Clearance :=
  ⟨flag, h.record, (h.tombstone host flag).event⟩

lemma maybeAutoclearFlag_of_not (hnot : ∀ flag, ¬ Attempts g h flag) :
    maybeAutoclearFlag host h g = g := by
  rw [maybeAutoclearFlag]
  by_cases hstatus : h.record.subjectStatus ≠ "healthy" ∨ h.record.subjectId = ""
  · rw [if_pos hstatus]
  · rw [if_neg hstatus]
    push Not at hstatus
    cases hfinds : Dict.get? h.record.subjectId (g.flags h.consumer) with
    | none => rfl
    | some flag =>
      by_cases henviron : h.environ "FINOPS_KB_WRITE" = some "1"
      · cases hartifact : h.artifactFailure with
        | some detail => simp
        | none => exact absurd ⟨hstatus.1, hstatus.2, hfinds, henviron, hartifact⟩ (hnot flag)
      · simp [henviron]

lemma maybeAutoclearFlag_of_attempts {flag : KnowledgeRecord} (ha : Attempts g h flag) :
    (maybeAutoclearFlag host h g).lines = g.lines ∧
      (maybeAutoclearFlag host h g).handled = g.handled ∧
      (maybeAutoclearFlag host h g).cleared =
        g.cleared ++ (if h.Publishes then [h.clearance host flag] else []) ∧
      ∀ consumer kv, kv ∈ (maybeAutoclearFlag host h g).flags consumer → kv ∈ g.flags consumer := by
  have hstatus : ¬ (h.record.subjectStatus ≠ "healthy" ∨ h.record.subjectId = "") := by
    simp [ha.healthy, ha.subject]
  have hartifact : ¬ h.artifactFailure.isSome = true := by simp [ha.artifact]
  rw [maybeAutoclearFlag, if_neg hstatus, ha.finds]
  simp only [ha.writes, ne_eq, not_true_eq_false, if_false, hartifact]
  rcases (h.tombstone host flag).publishEvent g.redis with ⟨_ | id, redis⟩
  · exact ⟨rfl, rfl, rfl, fun _ _ hkv => hkv⟩
  · refine ⟨rfl, rfl, rfl, fun consumer kv hkv => ?_⟩
    have hkv : kv ∈ (g.remember h.consumer
        (Dict.erase h.record.subjectId (g.flags h.consumer))).flags consumer := hkv
    rw [RegistryGroup.remember_flags] at hkv
    split_ifs at hkv with hconsumer
    · rw [hconsumer]
      exact List.mem_of_mem_filter hkv
    · exact hkv

lemma react_lines : (react host h g).lines = g.lines := by
  rw [react]
  split_ifs
  · rfl
  · rfl
  · by_cases ha : ∃ flag, Attempts g h flag
    · obtain ⟨flag, ha⟩ := ha
      exact (maybeAutoclearFlag_of_attempts ha).1
    · rw [maybeAutoclearFlag_of_not (not_exists.mp ha)]
  · rfl

lemma react_handled : (react host h g).handled = g.handled := by
  rw [react]
  split_ifs
  · rfl
  · rfl
  · by_cases ha : ∃ flag, Attempts g h flag
    · obtain ⟨flag, ha⟩ := ha
      exact (maybeAutoclearFlag_of_attempts ha).2.1
    · rw [maybeAutoclearFlag_of_not (not_exists.mp ha)]
  · rfl

lemma mem_react_cleared {c : Clearance} : c ∈ (react host h g).cleared ↔
    c ∈ g.cleared ∨ h.record.sourceType = "observation" ∧ h.Publishes ∧
      ∃ flag, Attempts g h flag ∧ c = h.clearance host flag := by
  rw [react]
  by_cases hflag : h.record.sourceType = "flag"
  · have hother : h.record.sourceType ≠ "observation" := by
      rw [hflag]
      decide
    rw [if_pos hflag]
    split_ifs <;> simp [hother]
  · rw [if_neg hflag]
    by_cases hobs : h.record.sourceType = "observation"
    · rw [if_pos hobs]
      by_cases ha : ∃ flag, Attempts g h flag
      · obtain ⟨flag, ha⟩ := ha
        rw [(maybeAutoclearFlag_of_attempts ha).2.2.1, List.mem_append]
        have hsame : (∃ flag', Attempts g h flag' ∧ c = h.clearance host flag') ↔
            c = h.clearance host flag := by
          constructor
          · rintro ⟨flag', ha', rfl⟩
            rw [Option.some_injective _ (ha'.finds.symm.trans ha.finds)]
          · rintro rfl
            exact ⟨flag, ha, rfl⟩
        rw [hsame]
        by_cases hpublishes : h.Publishes <;> simp [hpublishes, hobs]
      · rw [maybeAutoclearFlag_of_not (not_exists.mp ha)]
        constructor
        · exact Or.inl
        · rintro (hc | ⟨-, -, flag, hflag, -⟩)
          · exact hc
          · exact absurd ⟨flag, hflag⟩ ha
    · rw [if_neg hobs]
      simp [hobs]

lemma mem_react_flags {consumer : String} {kv : String × KnowledgeRecord}
    (hkv : kv ∈ (react host h g).flags consumer) :
    kv ∈ g.flags consumer ∨ h.record.sourceType = "flag" ∧ kv = (h.record.flagKey, h.record) := by
  rw [react] at hkv
  split_ifs at hkv with hflag hdelete hobs
  · rw [RegistryGroup.remember_flags] at hkv
    split_ifs at hkv with hconsumer
    · rw [hconsumer]
      exact .inl (List.mem_of_mem_filter hkv)
    · exact .inl hkv
  · rw [RegistryGroup.remember_flags] at hkv
    split_ifs at hkv with hconsumer
    · rw [hconsumer]
      exact (Dict.mem_set.mp hkv).symm.imp And.left fun heq => ⟨hflag, heq⟩
    · exact .inl hkv
  · by_cases ha : ∃ flag, Attempts g h flag
    · obtain ⟨flag, ha⟩ := ha
      exact .inl ((maybeAutoclearFlag_of_attempts ha).2.2.2 consumer kv hkv)
    · rw [maybeAutoclearFlag_of_not (not_exists.mp ha)] at hkv
      exact .inl hkv
  · exact .inl hkv

/-! ### What one event changes -/

lemma handler_lines : (handler host h g).lines = g.lines ++ h.written.1 := by
  rw [handler]
  split_ifs
  · exact react_lines
  · rfl

lemma handler_handled : (handler host h g).handled =
    g.handled ++ (if h.written.2 then [(h.record, h.operation)] else []) := by
  rw [handler]
  split_ifs
  · exact congrArg (· ++ [(h.record, h.operation)]) react_handled
  · exact (List.append_nil g.handled).symm

lemma mem_handler_cleared {c : Clearance} : c ∈ (handler host h g).cleared ↔
    c ∈ g.cleared ∨ h.written.2 = true ∧ h.record.sourceType = "observation" ∧ h.Publishes ∧
      ∃ flag, Attempts g h flag ∧ c = h.clearance host flag := by
  rw [handler]
  split_ifs with hwritten
  · have hsame (flag : KnowledgeRecord) :
        Attempts { g with lines := g.lines ++ h.written.1 } h flag ↔ Attempts g h flag :=
      ⟨fun ha => ⟨ha.healthy, ha.subject, ha.finds, ha.writes, ha.artifact⟩,
        fun ha => ⟨ha.healthy, ha.subject, ha.finds, ha.writes, ha.artifact⟩⟩
    refine mem_react_cleared.trans ?_
    simp only [hsame, hwritten, true_and]
  · simp [hwritten]

lemma mem_handler_flags {consumer : String} {kv : String × KnowledgeRecord}
    (hkv : kv ∈ (handler host h g).flags consumer) :
    kv ∈ g.flags consumer ∨ h.record.sourceType = "flag" ∧ kv = (h.record.flagKey, h.record) := by
  rw [handler] at hkv
  split_ifs at hkv
  · exact mem_react_flags (g := { g with lines := g.lines ++ h.written.1 }) hkv
  · exact .inl hkv

/-! ### The invariant -/

/-- The maps hold flags of their sessions, and a tombstone answers a healthy observation that was
handled. -/
structure Inv (g : RegistryGroup) : Prop where
  flags : ∀ consumer kv, kv ∈ g.flags consumer → kv.2.sourceType = "flag" ∧ kv.2.flagKey = kv.1
  cleared : ∀ c ∈ g.cleared, c.observation.sourceType = "observation" ∧
    c.observation.subjectStatus = "healthy" ∧ c.observation.subjectId = c.flag.flagKey ∧
      c.flag.sourceType = "flag" ∧ ∃ operation, (c.observation, operation) ∈ g.handled

lemma inv_initial : Inv .initial where
  flags _ _ hkv := absurd hkv List.not_mem_nil
  cleared _ hc := absurd hc List.not_mem_nil

lemma Inv.handler (hinv : Inv g) : Inv (handler host h g) where
  flags consumer kv hkv := by
    rcases mem_handler_flags hkv with hkv | ⟨hflag, rfl⟩
    · exact hinv.flags consumer kv hkv
    · exact ⟨hflag, rfl⟩
  cleared c hc := by
    rw [handler_handled]
    rcases mem_handler_cleared.mp hc with hc | ⟨hwritten, hobs, -, flag, ha, rfl⟩
    · obtain ⟨hobs, hhealthy, hsubject, hflag, operation, hmem⟩ := hinv.cleared c hc
      exact ⟨hobs, hhealthy, hsubject, hflag, operation, List.mem_append_left _ hmem⟩
    · obtain ⟨hflag, hkey⟩ := hinv.flags h.consumer _ (Dict.mem_of_get? ha.finds)
      exact ⟨hobs, ha.healthy, hkey.symm, hflag, h.operation, by simp [HandlerCall.clearance, hwritten]⟩

lemma Inv.step (hinv : Inv g) (s : GroupStep) : Inv (g.step host s) := by
  cases s with
  | handle h => exact hinv.handler
  | restart consumer =>
    refine ⟨fun consumer' kv hkv => ?_, hinv.cleared⟩
    have hkv : kv ∈ (g.remember consumer []).flags consumer' := hkv
    rw [RegistryGroup.remember_flags] at hkv
    split_ifs at hkv
    · exact absurd hkv List.not_mem_nil
    · exact hinv.flags consumer' kv hkv

/-! ### The last line about an entity -/

lemma written_lines : h.written.1 <+: registryLines h.record.registry h.operation h.reason := by
  rw [HandlerCall.written]
  split
  · exact List.take_prefix _ _
  · exact List.prefix_refl _

lemma written_ne_nil (hwritten : h.written.2 = true) : h.written.1 ≠ [] := by
  have hlines : registryLines h.record.registry h.operation h.reason ≠ [] := by
    rw [registryLines]
    split
    · split_ifs <;> simp
    · simp
  revert hwritten
  rw [HandlerCall.written]
  split
  · intro hwritten
    rwa [List.take_of_length_le (by simpa using hwritten)]
  · intro _
    exact hlines

lemma clears_iff {record : RegistryRecord} {operation reason : String} {r : Row}
    (hr : r ∈ registryLines record operation reason) : r.Clears record.entityId ↔
      record.sourceType = "flag" ∧ operation = "delete" ∧ reason = clearedReason := by
  have hmarker {predecessor : String} : ¬ Row.Clears
      { knowledgeId := some predecessor
        entityId := some record.entityId
        lifecycleState := some "superseded"
        validTo := some record.validFrom
        indexedAt := some record.indexedAt } record.entityId := by
    rintro ⟨-, hsource, -⟩
    cases hsource
  have hstate : lifecycleStateFor operation = "tombstoned" ↔ operation = "delete" := by
    rw [lifecycleStateFor]
    split_ifs with hdelete <;> simp [hdelete]
  rw [registryLines] at hr
  split at hr
  · split_ifs at hr with hsupersede
    · rcases List.mem_pair.mp hr with rfl | rfl
      · simp [Row.Clears, hstate]
      · simp [hmarker, hsupersede]
    · simp [List.mem_singleton.mp hr, Row.Clears, hstate]
  · simp [List.mem_singleton.mp hr, Row.Clears, hstate]

lemma cleared_append_other {lines written : List Row} {e : String}
    (hother : ∀ r ∈ written, r.entityId ≠ some e) :
    (lines ++ written).filter (fun r => r.entityId = some e) =
      lines.filter fun r => r.entityId = some e := by
  have hnone : written.filter (fun r => r.entityId = some e) = [] :=
    List.filter_eq_nil_iff.mpr fun r hr => by simpa using hother r hr
  rw [List.filter_append, hnone, List.append_nil]

lemma cleared_handler_other {e : String} (hother : h.written.1 = [] ∨ h.record.entityId ≠ e) :
    (handler host h g).Cleared e ↔ g.Cleared e := by
  have hlines : ∀ r ∈ h.written.1, r.entityId ≠ some e := by
    intro r hr
    rcases hother with hnil | hne
    · rw [hnil] at hr
      exact absurd hr List.not_mem_nil
    · rw [(registryLines_spec (written_lines.subset hr)).1]
      intro heq
      exact hne (Option.some_injective _ heq)
  rw [RegistryGroup.Cleared, handler_lines, cleared_append_other hlines]
  rfl

lemma cleared_handler_same (hwritten : h.written.1 ≠ []) :
    (handler host h g).Cleared h.record.entityId ↔
      h.record.sourceType = "flag" ∧ h.operation = "delete" ∧ h.reason = clearedReason := by
  have hall : h.written.1.filter (fun r => r.entityId = some h.record.entityId) = h.written.1 :=
    List.filter_eq_self.mpr fun r hr =>
      decide_eq_true (registryLines_spec (written_lines.subset hr)).1
  have hlast : ((handler host h g).lines.filter
      fun r => r.entityId = some h.record.entityId).getLast? = some (h.written.1.getLast hwritten) := by
    rw [handler_lines, List.filter_append, hall, List.getLast?_append_of_ne_nil _ hwritten,
      List.getLast?_eq_some_getLast hwritten]
  have hclears := clears_iff (written_lines.subset (List.getLast_mem hwritten))
  rw [RegistryGroup.Cleared, hlast]
  constructor
  · rintro ⟨r, hr, hclear⟩
    rw [← Option.some_injective _ hr] at hclear
    exact hclears.mp hclear
  · intro htombstone
    exact ⟨_, rfl, hclears.mpr htombstone⟩

/-! ### One step -/

lemma lastEvent_handler {flag : KnowledgeRecord} (hlast : (handler host h g).LastEvent instant flag) :
    g.LastEvent instant flag ∨ h.written.2 = true ∧ flag = h.record ∧ h.operation ≠ "delete" := by
  obtain ⟨hflag, ⟨operation, hdelete, hmem⟩, hlater⟩ := hlast
  rw [handler_handled] at hmem hlater
  rcases List.mem_append.mp hmem with hmem | hmem
  · exact .inl ⟨hflag, ⟨operation, hdelete, hmem⟩, fun o ho => hlater o (List.mem_append_left _ ho)⟩
  · split_ifs at hmem with hwritten
    · obtain ⟨rfl, rfl⟩ := Prod.mk.inj (List.mem_singleton.mp hmem)
      exact .inr ⟨hwritten, rfl, hdelete⟩
    · exact absurd hmem List.not_mem_nil

lemma RegistryGroup.LastEvent.handler {flag : KnowledgeRecord} (hlast : g.LastEvent instant flag)
    (hother : h.record.sourceType ≠ "observation") : (handler host h g).LastEvent instant flag := by
  obtain ⟨hflag, ⟨operation, hdelete, hmem⟩, hlater⟩ := hlast
  rw [RegistryGroup.LastEvent, handler_handled]
  refine ⟨hflag, ⟨operation, hdelete, List.mem_append_left _ hmem⟩, fun o ho hobs => ?_⟩
  rcases List.mem_append.mp ho with ho | ho
  · exact hlater o ho hobs
  · split_ifs at ho
    · rw [List.mem_singleton.mp ho] at hobs
      exact absurd hobs hother
    · exact absurd ho List.not_mem_nil

lemma Inv.not_last (hinv : Inv g) {c : Clearance} (hc : c ∈ g.cleared)
    (hlater : instant c.flag.observedAt < instant c.observation.observedAt) :
    ¬ g.LastEvent instant c.flag := by
  rintro ⟨-, -, hlast⟩
  obtain ⟨hobs, -, hsubject, -, operation, hmem⟩ := hinv.cleared c hc
  exact absurd hlater (hlast _ hmem hobs hsubject).le.not_gt

lemma later_handler_iff
    (hlater : ∀ c ∈ g.cleared, instant c.flag.observedAt < instant c.observation.observedAt) :
    (∀ c ∈ (handler host h g).cleared,
        instant c.flag.observedAt < instant c.observation.observedAt) ↔ ¬ Hasty instant g h := by
  constructor
  · rintro hall ⟨⟨hobs, hhealthy, hsubject⟩, ⟨flag, hfinds, hnot⟩, ⟨hwritten, hwrites, hartifact⟩,
      hpublishes⟩
    refine hnot (hall (h.clearance host flag) (mem_handler_cleared.mpr (.inr ?_)))
    exact ⟨hwritten, hobs, hpublishes, flag, ⟨hhealthy, hsubject, hfinds, hwrites, hartifact⟩, rfl⟩
  · intro hhasty c hc
    rcases mem_handler_cleared.mp hc with hc | ⟨hwritten, hobs, hpublishes, flag, ha, rfl⟩
    · exact hlater c hc
    · by_contra hnot
      exact hhasty ⟨⟨hobs, ha.healthy, ha.subject⟩, ⟨flag, ha.finds, hnot⟩,
        ⟨hwritten, ha.writes, ha.artifact⟩, hpublishes⟩

lemma stands_handler_iff (hstands : ∀ flag, g.LastEvent instant flag → ¬ g.Cleared flag.entityId) :
    (∀ flag, (handler host h g).LastEvent instant flag →
        ¬ (handler host h g).Cleared flag.entityId) ↔ ¬ Overdue instant g h := by
  constructor
  · rintro hall ⟨htombstone, hwritten, flag, hlast, hentity⟩
    have hother : h.record.sourceType ≠ "observation" := by
      rw [htombstone.1]
      decide
    refine hall flag (hlast.handler hother) ?_
    rw [hentity]
    exact (cleared_handler_same hwritten).mpr htombstone
  · intro hoverdue flag hlast hcleared
    by_cases hsame : h.written.1 = [] ∨ h.record.entityId ≠ flag.entityId
    · rcases lastEvent_handler hlast with hlast | ⟨hwritten, rfl, -⟩
      · exact hstands flag hlast ((cleared_handler_other hsame).mp hcleared)
      · exact hsame.elim (written_ne_nil hwritten) fun hne => hne rfl
    · push Not at hsame
      rw [← hsame.2] at hcleared
      have htombstone := (cleared_handler_same hsame.1).mp hcleared
      rcases lastEvent_handler hlast with hlast | ⟨-, -, hdelete⟩
      · exact hoverdue ⟨htombstone, hsame.1, flag, hlast, hsame.2.symm⟩
      · exact hdelete htombstone.2.1

lemma keepsFlags_iff (hinv : Inv g) : g.KeepsFlags instant ↔
    (∀ c ∈ g.cleared, instant c.flag.observedAt < instant c.observation.observedAt) ∧
      ∀ flag, g.LastEvent instant flag → ¬ g.Cleared flag.entityId := by
  constructor
  · intro hkeeps
    exact ⟨fun c hc => (hkeeps.later c hc).2.2.2, fun flag hlast => (hkeeps.stands flag hlast).2⟩
  · rintro ⟨hlater, hstands⟩
    constructor
    · intro c hc
      obtain ⟨hobs, hhealthy, hsubject, -, -⟩ := hinv.cleared c hc
      exact ⟨hobs, hhealthy, hsubject, hlater c hc⟩
    · intro flag hlast
      refine ⟨?_, hstands flag hlast⟩
      rintro c hc rfl
      exact hinv.not_last hc (hlater c hc) hlast

lemma keepsFlags_step (hinv : Inv g) (hkeeps : g.KeepsFlags instant) (s : GroupStep) :
    (g.step host s).KeepsFlags instant ↔ Orderly instant g s := by
  rw [keepsFlags_iff (hinv.step s)]
  obtain ⟨hlater, hstands⟩ := (keepsFlags_iff hinv).mp hkeeps
  cases s with
  | handle h =>
    exact and_congr (later_handler_iff hlater) (stands_handler_iff hstands)
  | restart consumer => exact iff_of_true ⟨hlater, hstands⟩ trivial

lemma keepsFlags_initial : RegistryGroup.initial.KeepsFlags instant where
  later _ hc := absurd hc List.not_mem_nil
  stands _ hlast := by
    obtain ⟨-, ⟨operation, -, hmem⟩, -⟩ := hlast
    exact absurd hmem List.not_mem_nil

end Flags

/-! ### Every run -/

/-- A record of the session `s1`. -/
def sessionRecord (sourceType observedAt subjectStatus : String) : KnowledgeRecord where
  knowledgeId := sourceType ++ observedAt
  entityId := sourceType ++ "_stream:s1"
  sourceUri := ""
  sourceType := sourceType
  logicalLocator := "s1"
  repositoryId := "agentic-dynamics"
  branch := ""
  worktreeId := ""
  commitSha := "observation/unrevisioned"
  contentHash := ""
  extractorVersion := "observation/v1"
  embeddingVersion := ""
  authority := .derived
  validFrom := observedAt
  validTo := none
  observedAt := observedAt
  indexedAt := observedAt
  aclScope := ""
  containsSensitiveData := false
  text := ""
  tokenCount := 0
  language := ""
  symbols := []
  outcomeId := ""
  testExecutedSuccess := none
  evidenceClass := "[M]"
  subjectId := "s1"
  subjectStatus := subjectStatus

def healthyAtNine : KnowledgeRecord := sessionRecord "observation" "2026-09-01T09:00:00" "healthy"

def flaggedAtTen : KnowledgeRecord := sessionRecord "flag" "2026-09-01T10:00:00" "stalled"

/-- One process handles the observation and is gone before it acknowledges it; another handles the
flag, and then the observation that it claims. -/
def redelivery : List GroupStep :=
  [.handle { consumer := "a", record := healthyAtNine, environ := writerEnviron },
    .handle { consumer := "b", record := flaggedAtTen, environ := writerEnviron },
    .handle { consumer := "b", record := healthyAtNine, environ := writerEnviron }]

end AgenticDynamics.Knowledge
