import Mathlib.Data.List.ReduceOption
import Mathlib.Data.Prod.Lex
import Mathlib.Data.String.Basic
import AgenticDynamics.Library.Accumulate
import AgenticDynamics.Library.StableSort

/-!
# The orphan sweep

A delegation is an orphan when its parent session has fallen silent since the spawn and the
subagent has terminated. What the rule takes for a termination is that some step was finished, or
else that nothing was heard of the subagent for the time of grace.
-/

namespace AgenticDynamics.Control

open Python StableSort

/-! ### Transcripts -/

structure SessionRecord where
  id : String
  parentId : Option String
  title : String
  model : String
  timeCreated : ℤ
  timeUpdated : ℤ

structure PartRecord where
  id : String
  sessionId : String
  timeCreated : ℤ
  type : String
  data : Dict Json

def meaningfulStepTypes : List String :=
  ["step-start", "step-finish", "tool", "text", "reasoning", "patch"]

abbrev PartRecord.Meaningful (p : PartRecord) : Prop := p.type ∈ meaningfulStepTypes

abbrev PartRecord.Finish (p : PartRecord) : Prop := p.type = "step-finish"

inductive Termination
  | completed
  | crashed
  deriving DecidableEq, Repr

structure OrphanRecord where
  orphanId : String
  detectedAt : String
  parentSessionId : String
  parentTitle : String
  parentModel : String
  subagentSessionId : String
  subagentTitle : String
  subagentModel : String
  spawnMs : ℤ
  spawnAt : String
  parentLastStepMs : Option ℤ
  parentLastStepAt : String
  subagentLastStepMs : Option ℤ
  subagentLastStepAt : String
  terminatedMs : ℤ
  terminatedAt : String
  terminatedReason : Termination
  resultAvailable : Bool
  idleMinutes : ℚ
  flagged : Bool := true

/-- What the sweep asks of its surroundings: `hashlib.sha256` in hexadecimal, and the text of the
current time. -/
structure SweepHost where
  sha256 : String → String
  utcNow : String

/-- Microseconds from the first instant of a `datetime` to the epoch. -/
def epochMicros : ℤ := 62135596800 * 1000000

/-- A time of a transcript as a text; `datetime.fromtimestamp` raises beyond its years. -/
def isoFromMs : Option ℤ → Except String String
  | none    => .ok ""
  | some ms =>
    let micros := ms / 1000 * 1000000 + epochMicros
    if 0 ≤ micros ∧ micros ≤ maxInstant then .ok (isoZ micros.toNat) else .error "ValueError"

def orphanId (host : SweepHost) (parentSessionId subagentSessionId : String) : String :=
  String.ofList ((host.sha256 (parentSessionId ++ "|" ++ subagentSessionId)).toList.take 16)

/-- The subagent a part of type `task` delegated to. -/
def taskTarget (part : PartRecord) : Option Json :=
  match part.data.get? "type", part.data.get? "tool", part.data.get? "state" with
  | some (.str type), some (.str tool), some (.obj state) =>
    if type ≠ "tool" ∨ tool ≠ "task" then none
    else match Dict.get? "metadata" state with
      | some (.obj metadata) =>
        match Dict.get? "sessionId" metadata with
        | some target => if target.truthy then some target else Dict.get? "session_id" metadata
        | none        => Dict.get? "session_id" metadata
      | _ => none
  | _, _, _ => none

def targets (subagentSessionId : String) (part : PartRecord) : Bool :=
  match taskTarget part with
  | some (.str target) => target = subagentSessionId
  | _                  => false

/-- The latest time of the parts that count. -/
def latestOf (counts : PartRecord → Bool) (parts : List PartRecord) : Option ℤ :=
  parts.foldl (fun latest part =>
    if counts part then
      match latest with
      | none   => some part.timeCreated
      | some t => if t < part.timeCreated then some part.timeCreated else some t
    else latest) none

def lastMeaningfulStep (parts : List PartRecord) : Option ℤ :=
  latestOf (fun p => p.Meaningful) parts

def lastMeaningfulStepAfter (afterMs : ℤ) (parts : List PartRecord) : Option ℤ :=
  latestOf (fun p => p.Meaningful ∧ ¬ p.timeCreated ≤ afterMs) parts

def lastStepFinish (parts : List PartRecord) : Option ℤ :=
  latestOf (fun p => p.Finish) parts

def taskSpawnMs (parentParts : List PartRecord) (subagentSessionId : String) : Option ℤ :=
  ((parentParts.filter (targets subagentSessionId)).map PartRecord.timeCreated).min?

/-! ### The detection rule -/

def partsOf (parts : List PartRecord) (sessionId : String) : List PartRecord :=
  parts.filter fun p => p.sessionId = sessionId

/-- The sessions by their ids: of two rows of one id, the later. -/
def sessionsById (sessions : List SessionRecord) : Dict SessionRecord :=
  Dict.accumulate SessionRecord.id (fun _ s => s) sessions

/-- The parent of a delegation, where it can be looked at. -/
def parentOf (byId : Dict SessionRecord) (subagent : SessionRecord) : Option SessionRecord :=
  match subagent.parentId with
  | none          => none
  | some parentId => if parentId = "" ∨ parentId = subagent.id then none else byId.get? parentId

/-- When the parent delegated: `0` is no time. -/
def spawnMs (parentParts : List PartRecord) (subagent : SessionRecord) : ℤ :=
  match taskSpawnMs parentParts subagent.id with
  | some ms => if ms ≠ 0 then ms else subagent.timeCreated
  | none    => subagent.timeCreated

/-- When and how the subagent terminated, if the rule takes it to have. -/
def terminated (subagentParts : List PartRecord) (subagent : SessionRecord)
    (nowMs crashGraceS : ℤ) : Option (ℤ × Termination) :=
  match lastStepFinish subagentParts with
  | some finishMs => some (finishMs, .completed)
  | none =>
    let lastActivity := (lastMeaningfulStep subagentParts).getD subagent.timeUpdated
    if nowMs - lastActivity ≤ crashGraceS * 1000 then none else some (lastActivity, .crashed)

def orphanOf (host : SweepHost) (byId : Dict SessionRecord) (parts : List PartRecord)
    (nowMs crashGraceS : ℤ) (subagent : SessionRecord) : Except String (Option OrphanRecord) :=
  match parentOf byId subagent with
  | none => .ok none
  | some parent =>
    let parentParts := partsOf parts parent.id
    let subagentParts := partsOf parts subagent.id
    let spawn := spawnMs parentParts subagent
    let parentLastStep := lastMeaningfulStepAfter spawn parentParts
    if parentLastStep.isSome then .ok none
    else match terminated subagentParts subagent nowMs crashGraceS with
      | none => .ok none
      | some (terminatedMs, reason) => do
        let subagentLast := lastMeaningfulStep subagentParts
        return some
          { orphanId := orphanId host parent.id subagent.id
            detectedAt := host.utcNow
            parentSessionId := parent.id
            parentTitle := parent.title
            parentModel := parent.model
            subagentSessionId := subagent.id
            subagentTitle := subagent.title
            subagentModel := subagent.model
            spawnMs := spawn
            spawnAt := ← isoFromMs (some spawn)
            parentLastStepMs := parentLastStep
            parentLastStepAt := ← isoFromMs parentLastStep
            subagentLastStepMs := subagentLast
            subagentLastStepAt := ← isoFromMs subagentLast
            terminatedMs := terminatedMs
            terminatedAt := ← isoFromMs (some terminatedMs)
            terminatedReason := reason
            resultAvailable := reason = .completed
            idleMinutes := roundHalfEven ((nowMs - terminatedMs) / 60000 * 100) / 100 }

def detectOrphans (host : SweepHost) (sessions : List SessionRecord) (parts : List PartRecord)
    (nowMs crashGraceS : ℤ) : Except String (List OrphanRecord) :=
  if crashGraceS ≤ 0 then .error "crash_grace_s must be > 0"
  else do
    let byId := sessionsById sessions
    let found ← (byId.map Prod.snd).mapM (orphanOf host byId parts nowMs crashGraceS)
    return sortBy (fun o => toLex (o.subagentSessionId, o.parentSessionId)) found.reduceOption

/-! ### The newest part -/

section Newest

variable {counts : PartRecord → Bool} {parts : List PartRecord} {t : ℤ}

/-- A part that counts was made at the time, and none later. -/
def Newest (counts : PartRecord → Prop) (parts : List PartRecord) (t : ℤ) : Prop :=
  (∃ p ∈ parts, counts p ∧ p.timeCreated = t) ∧ ∀ p ∈ parts, counts p → p.timeCreated ≤ t

lemma latestOf_concat (p : PartRecord) : latestOf counts (parts ++ [p]) =
    if counts p then
      match latestOf counts parts with
      | none   => some p.timeCreated
      | some t => if t < p.timeCreated then some p.timeCreated else some t
    else latestOf counts parts := by
  rw [latestOf, List.foldl_append]
  rfl

lemma latestOf_spec : (latestOf counts parts = none ∧ ∀ p ∈ parts, counts p = false) ∨
    ∃ t, latestOf counts parts = some t ∧ Newest (fun p => counts p = true) parts t := by
  induction parts using List.reverseRecOn with
  | nil => exact .inl ⟨rfl, by simp⟩
  | append_singleton parts p ih =>
    rw [latestOf_concat]
    cases hp : counts p with
    | false =>
      obtain ⟨hnone, hall⟩ | ⟨t, ht, ⟨q, hq, hcounts, rfl⟩, hmax⟩ := ih
      · exact .inl ⟨by simpa using hnone, by simpa [or_imp, forall_and, hp] using hall⟩
      · refine .inr ⟨q.timeCreated, by simpa using ht, ⟨q, by simp [hq], hcounts, rfl⟩, ?_⟩
        simpa [or_imp, forall_and, hp] using hmax
    | true =>
      right
      obtain ⟨hnone, hall⟩ | ⟨t, ht, ⟨q, hq, hcounts, rfl⟩, hmax⟩ := ih
      · refine ⟨p.timeCreated, by simp [hnone], ⟨p, by simp, hp, rfl⟩, fun q hq hcounts => ?_⟩
        rcases List.mem_append.mp hq with hq | hq
        · exact absurd hcounts (by simp [hall q hq])
        · rw [List.mem_singleton.mp hq]
      · by_cases hlt : q.timeCreated < p.timeCreated
        · refine ⟨p.timeCreated, by simp [ht, hlt], ⟨p, by simp, hp, rfl⟩, fun r hr hr' => ?_⟩
          rcases List.mem_append.mp hr with hr | hr
          · exact (hmax r hr hr').trans hlt.le
          · rw [List.mem_singleton.mp hr]
        · refine ⟨q.timeCreated, by simp [ht, hlt], ⟨q, by simp [hq], hcounts, rfl⟩,
            fun r hr hr' => ?_⟩
          rcases List.mem_append.mp hr with hr | hr
          · exact hmax r hr hr'
          · rw [List.mem_singleton.mp hr]
            exact not_lt.mp hlt

lemma Newest.unique {counts : PartRecord → Prop} {t' : ℤ} (h : Newest counts parts t)
    (h' : Newest counts parts t') : t = t' := by
  obtain ⟨⟨p, hp, hcounts, rfl⟩, hmax⟩ := h
  obtain ⟨⟨q, hq, hcounts', rfl⟩, hmax'⟩ := h'
  exact le_antisymm (hmax' p hp hcounts) (hmax q hq hcounts')

lemma latestOf_eq_none : latestOf counts parts = none ↔ ∀ p ∈ parts, counts p = false := by
  obtain ⟨hnone, hall⟩ | ⟨t, ht, ⟨q, hq, hcounts, -⟩, -⟩ := @latestOf_spec counts parts
  · exact ⟨fun _ => hall, fun _ => hnone⟩
  · rw [ht]
    exact ⟨fun h => (by cases h), fun h => absurd hcounts (by simp [h q hq])⟩

lemma latestOf_of_newest (h : Newest (fun p => counts p = true) parts t) :
    latestOf counts parts = some t := by
  obtain ⟨-, hall⟩ | ⟨t', ht', hnewest⟩ := @latestOf_spec counts parts
  · obtain ⟨⟨p, hp, hcounts, -⟩, -⟩ := h
    exact absurd hcounts (by simp [hall p hp])
  · rw [ht', h.unique hnewest]

end Newest

/-! ### Working agents -/

section Sweep

variable {host : SweepHost} {sessions : List SessionRecord} {parts : List PartRecord}
  {nowMs crashGraceS : ℤ} {orphans : List OrphanRecord} {s : SessionRecord}

def observed (sessions : List SessionRecord) : List SessionRecord :=
  (sessionsById sessions).map Prod.snd

/-- The newest meaningful part of the session is later than every step it finished, and not older
than the time of grace. -/
def Working (parts : List PartRecord) (nowMs crashGraceS : ℤ) (s : SessionRecord) : Prop :=
  ∃ t, Newest PartRecord.Meaningful (partsOf parts s.id) t ∧
    (∀ p ∈ partsOf parts s.id, p.Finish → p.timeCreated < t) ∧ nowMs - t ≤ crashGraceS * 1000

def StepFinished (parts : List PartRecord) (s : SessionRecord) : Prop :=
  ∃ p ∈ partsOf parts s.id, p.Finish

/-- The session has a parent among the others that made no meaningful part since it delegated. -/
def ParentSilent (sessions : List SessionRecord) (parts : List PartRecord) (s : SessionRecord) :
    Prop :=
  ∃ parent, parentOf (sessionsById sessions) s = some parent ∧
    ∀ p ∈ partsOf parts parent.id, p.Meaningful →
      p.timeCreated ≤ spawnMs (partsOf parts parent.id) s

def Flagged (orphans : List OrphanRecord) (s : SessionRecord) : Prop :=
  ∃ o ∈ orphans, o.subagentSessionId = s.id

lemma mem_sessionsById {kv : String × SessionRecord} (h : kv ∈ sessionsById sessions) :
    kv.2.id = kv.1 := by
  induction sessions using List.reverseRecOn with
  | nil => cases h
  | append_singleton sessions s ih =>
    rw [sessionsById, Dict.accumulate_concat, Dict.mem_set] at h
    obtain rfl | ⟨hkv, -⟩ := h
    · rfl
    · exact ih hkv

lemma observed_unique {s' : SessionRecord} (h : s ∈ observed sessions)
    (h' : s' ∈ observed sessions) (hid : s.id = s'.id) : s = s' := by
  obtain ⟨kv, hkv, rfl⟩ := List.mem_map.mp h
  obtain ⟨kv', hkv', rfl⟩ := List.mem_map.mp h'
  have hkey : kv.1 = kv'.1 := by rw [← mem_sessionsById hkv, ← mem_sessionsById hkv', hid]
  exact Dict.value_unique (Dict.nodup_accumulate _ _ _) (hkey ▸ hkv) hkv'

lemma lastMeaningfulStepAfter_eq_none {afterMs : ℤ} : lastMeaningfulStepAfter afterMs parts = none ↔
    ∀ p ∈ parts, p.Meaningful → p.timeCreated ≤ afterMs := by
  rw [lastMeaningfulStepAfter, latestOf_eq_none]
  simp

lemma orphanOf_spec {found : Option OrphanRecord}
    (h : orphanOf host (sessionsById sessions) parts nowMs crashGraceS s = .ok found) :
    (∀ o ∈ found, o.subagentSessionId = s.id) ∧
      (found.isSome ↔ ParentSilent sessions parts s ∧
        (terminated (partsOf parts s.id) s nowMs crashGraceS).isSome) := by
  rw [orphanOf] at h
  cases hparent : parentOf (sessionsById sessions) s with
  | none =>
    rw [hparent, Except.ok.injEq] at h
    simp [← h, ParentSilent, hparent]
  | some parent =>
    simp only [hparent] at h
    have hsilent : ParentSilent sessions parts s ↔
        lastMeaningfulStepAfter (spawnMs (partsOf parts parent.id) s) (partsOf parts parent.id) =
          none := by
      simp [ParentSilent, hparent, lastMeaningfulStepAfter_eq_none]
    rw [hsilent]
    cases hstep : lastMeaningfulStepAfter (spawnMs (partsOf parts parent.id) s)
        (partsOf parts parent.id) with
    | some step =>
      rw [hstep, Option.isSome_some, if_pos rfl, Except.ok.injEq] at h
      simp [← h]
    | none =>
      rw [hstep, Option.isSome_none, if_neg Bool.false_ne_true] at h
      cases hend : terminated (partsOf parts s.id) s nowMs crashGraceS with
      | none =>
        simp only [hend, Except.ok.injEq] at h
        simp [← h]
      | some ended =>
        obtain ⟨terminatedMs, reason⟩ := ended
        simp only [hend, bind_eq_ok, pure, Except.pure, Except.ok.injEq] at h
        obtain ⟨_, -, _, -, _, -, _, -, rfl⟩ := h
        simp

lemma flagged_iff (h : detectOrphans host sessions parts nowMs crashGraceS = .ok orphans)
    (hs : s ∈ observed sessions) : Flagged orphans s ↔ ParentSilent sessions parts s ∧
      (terminated (partsOf parts s.id) s nowMs crashGraceS).isSome := by
  rw [detectOrphans] at h
  split at h
  · cases h
  · simp only [bind_eq_ok, pure, Except.pure, Except.ok.injEq] at h
    obtain ⟨found, hfound, rfl⟩ := h
    obtain ⟨hto, hfrom⟩ := forall₂_mem (forall₂_of_mapM hfound)
    constructor
    · rintro ⟨o, ho, hid⟩
      rw [mem_sortBy, List.reduceOption_mem_iff] at ho
      obtain ⟨s', hs', hspec⟩ := hfrom _ ho
      obtain ⟨hname, hiff⟩ := orphanOf_spec hspec
      obtain rfl : s' = s := observed_unique hs' hs ((hname o rfl).symm.trans hid)
      exact hiff.mp rfl
    · intro hcond
      obtain ⟨r, hr, hspec⟩ := hto s hs
      obtain ⟨hname, hiff⟩ := orphanOf_spec hspec
      obtain ⟨o, rfl⟩ := Option.isSome_iff_exists.mp (hiff.mpr hcond)
      exact ⟨o, mem_sortBy.mpr (List.reduceOption_mem_iff.mpr hr), hname o rfl⟩

lemma terminated_of_working (h : Working parts nowMs crashGraceS s) :
    (terminated (partsOf parts s.id) s nowMs crashGraceS).isSome ↔ StepFinished parts s := by
  obtain ⟨t, hnewest, -, hgrace⟩ := h
  have hlast : lastMeaningfulStep (partsOf parts s.id) = some t :=
    latestOf_of_newest (by simpa using hnewest)
  rw [terminated, hlast]
  cases hfinish : lastStepFinish (partsOf parts s.id) with
  | none =>
    rw [lastStepFinish, latestOf_eq_none] at hfinish
    simpa [hgrace, StepFinished] using hfinish
  | some finishMs =>
    simp only [Option.isSome_some, true_iff, StepFinished]
    by_contra hnone
    have hnever : lastStepFinish (partsOf parts s.id) = none :=
      latestOf_eq_none.mpr fun p hp => by
        simpa using fun hp' => hnone ⟨p, hp, hp'⟩
    rw [hnever] at hfinish
    cases hfinish

/-- The sweep spares the working agents exactly if none of them has finished a step under a parent
that is silent since it delegated. -/
theorem spares_working_iff (h : detectOrphans host sessions parts nowMs crashGraceS = .ok orphans) :
    (∀ s ∈ observed sessions, Working parts nowMs crashGraceS s → ¬ Flagged orphans s) ↔
      ∀ s ∈ observed sessions, Working parts nowMs crashGraceS s → StepFinished parts s →
        ¬ ParentSilent sessions parts s := by
  refine forall₂_congr fun s hs => forall_congr' fun hworking => ?_
  rw [flagged_iff h hs, terminated_of_working hworking]
  tauto

/-! ### A subagent between two steps -/

def explorer : SessionRecord :=
  ⟨"sub", some "parent", "Explore", "provider/model", 1000, 9000⟩

/-- A parent that delegated at the first second, and the subagent. -/
def lineage : List SessionRecord :=
  [⟨"parent", none, "Author", "provider/model", 0, 1000⟩, explorer]

def stepOf (session kind : String) (ms : ℤ) : PartRecord :=
  ⟨kind, session, ms, kind, [("type", .str kind)]⟩

def started : List PartRecord :=
  [stepOf "parent" "tool" 1000, stepOf "sub" "step-start" 2000, stepOf "sub" "tool" 9000]

/-- The subagent has finished a step and is in its second. -/
def midway : List PartRecord :=
  [stepOf "parent" "tool" 1000, stepOf "sub" "step-start" 2000, stepOf "sub" "step-finish" 3000,
    stepOf "sub" "step-start" 8000, stepOf "sub" "tool" 9000]

def plainHost : SweepHost := ⟨id, "now"⟩

lemma working_midway : Working midway 10000 300 explorer := by
  have hparts : partsOf midway explorer.id = [stepOf "sub" "step-start" 2000,
      stepOf "sub" "step-finish" 3000, stepOf "sub" "step-start" 8000,
      stepOf "sub" "tool" 9000] := rfl
  refine ⟨9000, ⟨⟨stepOf "sub" "tool" 9000, ?_, by decide, rfl⟩, ?_⟩, ?_, by decide⟩
  · simp [hparts]
  · simp [hparts, stepOf]
  · simp [hparts, stepOf]

/-- A subagent in its second step is flagged. -/
theorem working_agent_flagged : ∃ orphans,
    detectOrphans plainHost lineage midway 10000 300 = .ok orphans ∧
      ∃ s ∈ observed lineage, Working midway 10000 300 s ∧ Flagged orphans s := by
  refine ⟨_, rfl, explorer, ?_, working_midway, ?_⟩
  · exact List.mem_cons_of_mem _ List.mem_cons_self
  · exact ⟨_, mem_sortBy.mpr List.mem_cons_self, rfl⟩

/-- A subagent in its first step is spared. -/
theorem first_step_spared : ∃ orphans,
    detectOrphans plainHost lineage started 10000 300 = .ok orphans ∧
      ∀ s ∈ observed lineage, Working started 10000 300 s → ¬ Flagged orphans s := by
  refine ⟨_, rfl, (@spares_working_iff plainHost _ _ _ _ _ rfl).mpr fun s _ _ hfinished => ?_⟩
  obtain ⟨p, hp, hfinish⟩ := hfinished
  have hnone : ∀ p ∈ started, ¬ p.Finish := by simp [started, stepOf]
  exact absurd hfinish (hnone p (List.mem_of_mem_filter hp))

end Sweep

end AgenticDynamics.Control
