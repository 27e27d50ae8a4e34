import Mathlib.Logic.Relation
import AgenticDynamics.Knowledge.KnowledgeStream

/-!
# Retries, dead letters and refused entries

When an entry that keeps failing is given up on, and what an entry that cannot be parsed does to
the passes that meet it. The delivery count is looked up among the oldest hundred pending entries
only, and a batch is parsed as a whole before any of it is handled.
-/

namespace AgenticDynamics.Knowledge

open Python ConsumerGroups

variable {ι β ρ : Type} [LinearOrder ι] (rt : Runtime)

/-! ### Giving up -/

lemma deliveryCount_eq {db : Streams ι} {p : Pending ι} (hp : p ∈ db.group.pending) :
    deliveryCount p.messageId db =
      if db.group.ahead p.messageId < claimBatch then p.timesDelivered else 0 := by
  rw [deliveryCount]
  cases hfind : (db.group.xpendingRange claimBatch).find? fun q => q.messageId = p.messageId with
  | none =>
    have hnot : p ∉ db.group.xpendingRange claimBatch := fun h =>
      List.find?_eq_none.mp hfind p h (by simp)
    rw [if_neg fun h => hnot ((Group.mem_xpendingRange hp _).mpr h)]
    rfl
  | some q =>
    have hid : q.messageId = p.messageId := by simpa using List.find?_some hfind
    have hq := List.mem_of_find?_eq_some hfind
    obtain rfl := Group.pending_unique (List.mem_of_mem_take hq) hp hid
    rw [if_pos ((Group.mem_xpendingRange hp _).mp hq)]
    rfl

/-- The attempt ends with the entry in the dead-letter stream and out of the pending list. -/
def GivesUp (worker : Worker β ρ) (clock : String) (maxRetries : ℤ) (entryId : ι)
    (event : KnowledgeEvent) (db : Streams ι) : Prop :=
  ∃ exc, attempt rt worker event = .error exc ∧
    processEntry rt worker clock maxRetries entryId event db =
      (.deadLetter, acknowledge [entryId] (deadLetter event entryId exc clock db))

lemma givesUp_iff {worker : Worker β ρ} {event : KnowledgeEvent} {exc : String}
    (hfail : attempt rt worker event = .error exc) (clock : String) (maxRetries : ℤ) (entryId : ι)
    (db : Streams ι) :
    GivesUp rt worker clock maxRetries entryId event db ↔
      maxRetries ≤ deliveryCount entryId db := by
  by_cases hle : maxRetries ≤ deliveryCount entryId db
  · simp [GivesUp, processEntry, hfail, hle]
  · simp [GivesUp, processEntry, hfail, hle]

/-- A failing attempt gives up exactly at the limit when the entry is among the oldest hundred
pending ones, and not beyond unless the limit is zero. -/
theorem processEntry_gives_up_at_limit {worker : Worker β ρ} {event : KnowledgeEvent}
    {exc : String} (hfail : attempt rt worker event = .error exc) {db : Streams ι} {p : Pending ι}
    (hp : p ∈ db.group.pending) (clock : String) (maxRetries : ℤ) :
    (GivesUp rt worker clock maxRetries p.messageId event db ↔ maxRetries ≤ p.timesDelivered) ↔
      (p.timesDelivered < maxRetries ∨ db.group.ahead p.messageId < claimBatch ∨
        maxRetries ≤ 0) := by
  rw [givesUp_iff rt hfail, deliveryCount_eq hp]
  by_cases hahead : db.group.ahead p.messageId < claimBatch
  · simp [hahead]
  · rw [if_neg hahead]
    omega

/-- Strings are quoted as Python quotes those without quotes and escapes. -/
def streamRuntime : Runtime where
  loads _ := .ok .null
  repr
    | .str s => "'" ++ s ++ "'"
    | _      => ""
  upper s := s
  lower s := s

def pointer : KnowledgeEvent where
  knowledgeId := "k1"
  entityId := "report"
  operation := "upsert"
  sourceUri := "results/report.json"
  sourceRevision := "r1"
  contentHash := "c0ffee"
  occurredAt := "2026-09-01T00:00:00+00:00"
  schemaVersion := "kb/v1"

/-- A worker that does not find its artifacts. -/
def missingArtifacts : Worker String KnowledgeEvent where
  artifactReader _ := .error "FileNotFoundError()"
  hexdigest artifact := artifact
  extractor event _ := .ok event
  handler := .plain fun _ => .ok ()

/-- Entries `0` to `n`, all of them pending since their third delivery. -/
def backlog (n : ℕ) : Streams ℕ where
  group :=
    { messages := []
      lastDelivered := some n
      pending := (List.range (n + 1)).map fun id => ⟨id, "worker", 0, 3⟩
      messages_sorted := List.Pairwise.nil
      pending_sorted := by
        rw [List.map_map]
        simpa [Function.comp_def] using List.pairwise_lt_range
      pending_delivered := by
        intro p hp
        obtain ⟨id, hid, rfl⟩ := List.mem_map.mp hp
        exact ⟨n, rfl, Nat.le_of_lt_succ (List.mem_range.mp hid)⟩ }

lemma mem_backlog (n : ℕ) : ⟨n, "worker", 0, 3⟩ ∈ (backlog n).group.pending :=
  List.mem_map.mpr ⟨n, List.self_mem_range_succ, rfl⟩

theorem processEntry_gives_up_at_limit_first :
    (GivesUp streamRuntime missingArtifacts "" 3 0 pointer (backlog 0) ↔ (3 : ℤ) ≤ (3 : ℕ)) ↔
      (((3 : ℕ) : ℤ) < 3 ∨ (backlog 0).group.ahead 0 < claimBatch ∨ (3 : ℤ) ≤ 0) :=
  processEntry_gives_up_at_limit streamRuntime rfl (mem_backlog 0) "" 3

/-- The entry behind a hundred others is retried at and beyond its limit. -/
theorem backlog_hides_the_limit :
    ⟨100, "worker", 0, 3⟩ ∈ (backlog 100).group.pending ∧
      processEntry streamRuntime missingArtifacts "" maxRetries 100 pointer (backlog 100) =
        (.retry, backlog 100) ∧
      ¬ (GivesUp streamRuntime missingArtifacts "" maxRetries 100 pointer (backlog 100) ↔
        maxRetries ≤ (3 : ℕ)) := by
  have hcount : deliveryCount 100 (backlog 100) = 0 := by decide +kernel
  refine ⟨mem_backlog 100, ?_, ?_⟩
  · simp [processEntry, missingArtifacts, attempt, bind, Except.bind, hcount, maxRetries]
  · rw [givesUp_iff streamRuntime rfl, hcount]
    simp [maxRetries]

/-! ### What handling leaves alone -/

/-- What may have become of the streams when the entries of `ids` were handled. -/
structure Handled (ids : List ι) (db db' : Streams ι) : Prop where
  messages : db'.group.messages = db.group.messages
  lastDelivered : db'.group.lastDelivered = db.group.lastDelivered
  sublist : db'.group.pending.Sublist db.group.pending
  kept : ∀ p ∈ db.group.pending, p.messageId ∉ ids → p ∈ db'.group.pending
  letters : ∀ l ∈ db'.deadLetters, l ∈ db.deadLetters ∨ l.sourceEntryId ∈ ids

namespace Handled

variable {ids ids' : List ι} {db db' db'' : Streams ι}

lemma refl (ids : List ι) (db : Streams ι) : Handled ids db db :=
  ⟨rfl, rfl, List.Sublist.refl _, fun _ hp _ => hp, fun _ hl => .inl hl⟩

lemma trans (h : Handled ids db db') (h' : Handled ids' db' db'') :
    Handled (ids ++ ids') db db'' where
  messages := h'.messages.trans h.messages
  lastDelivered := h'.lastDelivered.trans h.lastDelivered
  sublist := h'.sublist.trans h.sublist
  kept p hp hid := by
    rw [List.mem_append, not_or] at hid
    exact h'.kept p (h.kept p hp hid.1) hid.2
  letters l hl := by
    rcases h'.letters l hl with hl | hl
    · exact (h.letters l hl).imp id (List.mem_append_left _)
    · exact .inr (List.mem_append_right _ hl)

lemma undelivered (h : Handled ids db db') : db'.group.undelivered = db.group.undelivered := by
  simp only [Group.undelivered, h.messages, h.lastDelivered]

lemma outstanding (h : Handled ids db db') {m : ι × Fields} (hm : db.group.Outstanding m)
    (hid : m.1 ∉ ids) : db'.group.Outstanding m := by
  refine ⟨h.messages ▸ hm.1, hm.2.imp (fun ⟨p, hp, hpid⟩ => ?_) fun hu => h.undelivered ▸ hu⟩
  exact ⟨p, h.kept p hp (hpid ▸ hid), hpid⟩

lemma outstanding_before (h : Handled ids db db') {m : ι × Fields}
    (hm : db'.group.Outstanding m) : db.group.Outstanding m := by
  refine ⟨h.messages ▸ hm.1, hm.2.imp (fun ⟨p, hp, hpid⟩ => ?_) fun hu => h.undelivered ▸ hu⟩
  exact ⟨p, h.sublist.subset hp, hpid⟩

lemma ahead_le (h : Handled ids db db') (id : ι) : db'.group.ahead id ≤ db.group.ahead id :=
  h.sublist.countP_le

end Handled

lemma acknowledge_handled (entryId : ι) (db : Streams ι) :
    Handled [entryId] db (acknowledge [entryId] db) where
  messages := rfl
  lastDelivered := rfl
  sublist := List.filter_sublist
  kept _ hp hid := db.group.mem_xack.mpr ⟨hp, hid⟩
  letters _ hl := .inl hl

lemma processEntry_handled (worker : Worker β ρ) (clock : String) (maxRetries : ℤ) (entryId : ι)
    (event : KnowledgeEvent) (db : Streams ι) :
    Handled [entryId] db (processEntry rt worker clock maxRetries entryId event db).2 := by
  rw [processEntry]
  cases attempt rt worker event with
  | ok _ => exact acknowledge_handled entryId db
  | error exc =>
    dsimp only
    split
    · have h := acknowledge_handled entryId (deadLetter event entryId exc clock db)
      refine ⟨h.messages, h.lastDelivered, h.sublist, h.kept, fun l hl => ?_⟩
      rcases List.mem_append.mp hl with hl | hl
      · exact .inl hl
      · rw [List.mem_singleton.mp hl]
        exact .inr (List.mem_singleton.mpr rfl)
    · exact Handled.refl _ _

variable (env : PassEnv ι β ρ)

lemma handle_handled (acc : BatchOutcome ι × Streams ι) (entry : StreamEntry ι) :
    Handled [entry.entryId] acc.2 (handle rt env acc entry).2 :=
  processEntry_handled rt (env.worker entry.entryId) (env.clock entry.entryId) maxRetries
    entry.entryId entry.event acc.2

lemma foldl_handle_handled (entries : List (StreamEntry ι)) (acc : BatchOutcome ι × Streams ι) :
    Handled (entries.map StreamEntry.entryId) acc.2 (entries.foldl (handle rt env) acc).2 := by
  induction entries generalizing acc with
  | nil => exact Handled.refl _ _
  | cons entry entries ih => exact (handle_handled rt env acc entry).trans (ih (handle rt env acc entry))

/-! ### Parsing a batch -/

omit [LinearOrder ι] in
lemma parsed_eq_ok {messages : List (ι × Fields)} {entries : List (StreamEntry ι)}
    (h : parsed rt messages = .ok entries) :
    (∀ m ∈ messages, ¬ Refused rt m.2) ∧
      entries.map StreamEntry.entryId = messages.map Prod.fst := by
  induction messages generalizing entries with
  | nil =>
    simp only [parsed, List.mapM_nil, pure, Except.pure, Except.ok.injEq] at h
    simp [← h]
  | cons m messages ih =>
    simp only [parsed, List.mapM_cons, bind_eq_ok, pure, Except.pure, Except.ok.injEq] at h
    obtain ⟨entry, hentry, rest, hrest, rfl⟩ := h
    obtain ⟨hall, hids⟩ := ih hrest
    cases hdecode : decodeEvent rt m.2 with
    | error exc => simp [hdecode, Except.map] at hentry
    | ok event =>
      simp only [hdecode, Except.map, Except.ok.injEq] at hentry
      refine ⟨List.forall_mem_cons.mpr ⟨(not_refused rt).mpr ⟨event, hdecode⟩, hall⟩, ?_⟩
      simp [← hentry, hids]

omit [LinearOrder ι] in
lemma parsed_of_not_refused {messages : List (ι × Fields)}
    (h : ∀ m ∈ messages, ¬ Refused rt m.2) : ∃ entries, parsed rt messages = .ok entries := by
  refine mapM_isOk.mpr fun m hm => ?_
  obtain ⟨event, hevent⟩ := (not_refused rt).mp (h m hm)
  exact ⟨⟨m.1, event⟩, by simp [hevent, Except.map]⟩

/-! ### Passes -/

/-- A consumer of the group makes a pass, or messages are published. -/
inductive Step (β ρ : Type) (db : Streams ι) : Streams ι → Prop
  | pass (env : PassEnv ι β ρ) : Step β ρ db (processBatch rt env db).2
  | publish (ms : List (ι × Fields))
      (hsorted : ((db.group.messages ++ ms).map Prod.fst).Pairwise (· < ·)) :
      Step β ρ db { db with group := db.group.xadd ms hsorted }

/-- Any number of passes of any consumers, with publishing in between. -/
abbrev Run (β ρ : Type) : Streams ι → Streams ι → Prop := Relation.ReflTransGen (Step rt β ρ)

variable {rt}

/-- The streams after the claim of a pass. -/
def afterClaim (env : PassEnv ι β ρ) (db : Streams ι) : Streams ι :=
  { db with
    group := (db.group.xautoclaim env.consumer env.claimedAt leaseTimeoutMs claimBatch).2.2 }

def afterRead (env : PassEnv ι β ρ) (db : Streams ι) : Streams ι :=
  { db with group := (db.group.xreadgroup env.consumer env.readAt claimBatch).2 }

/-- The messages that a pass claims and those it reads. -/
def claimedMessages (env : PassEnv ι β ρ) (db : Streams ι) : List (ι × Fields) :=
  (db.group.xautoclaim env.consumer env.claimedAt leaseTimeoutMs claimBatch).1

def newMessages (db : Streams ι) : List (ι × Fields) := db.group.undelivered.take claimBatch

variable {env : PassEnv ι β ρ} {db : Streams ι}

lemma outstanding_of_claimedMessages {m : ι × Fields} (hm : m ∈ claimedMessages env db) :
    db.group.Outstanding m := Group.outstanding_of_claimed _ _ _ _ hm

lemma outstanding_of_newMessages {m : ι × Fields} (hm : m ∈ newMessages db) :
    db.group.Outstanding m :=
  have hu := List.mem_of_mem_take hm
  ⟨(Group.mem_undelivered.mp hu).1, .inr hu⟩

lemma processBatch_claim_error {exc : String}
    (h : parsed rt (claimedMessages env db) = .error exc) :
    processBatch rt env db = (.error exc, afterClaim env db) := by
  rw [claimedMessages] at h
  simp only [processBatch, claimPending, h]
  rfl

lemma processBatch_claim_ok {entries : List (StreamEntry ι)}
    {acc : BatchOutcome ι × Streams ι} (h : parsed rt (claimedMessages env db) = .ok entries)
    (hacc : entries.foldl (handle rt env) ({}, afterClaim env db) = acc) :
    (processBatch rt env db).2 =
      match parsed rt (newMessages acc.2) with
      | .error _     => afterRead env acc.2
      | .ok entries' => (entries'.foldl (handle rt env) (acc.1, afterRead env acc.2)).2 := by
  rw [claimedMessages] at h
  rw [afterClaim] at hacc
  simp only [processBatch, claimPending, readEvents, h, hacc, Group.xreadgroup_batch, newMessages,
    afterRead]
  cases parsed rt (acc.2.group.undelivered.take claimBatch) <;> rfl

lemma processBatch_preserves {P : Streams ι → Prop} (hclaim : ∀ db, P db → P (afterClaim env db))
    (hread : ∀ db, P db → P (afterRead env db))
    (hhandle : ∀ (db db' : Streams ι) (messages : List (ι × Fields)),
      (∀ m ∈ messages, m ∈ db.group.messages ∧ ¬ Refused rt m.2) →
      Handled (messages.map Prod.fst) db db' → P db → P db') (h : P db) :
    P (processBatch rt env db).2 := by
  -- the state after a parsed batch of messages of the stream was handled
  have hbatch : ∀ (db : Streams ι) (messages : List (ι × Fields)) entries totals,
      (∀ m ∈ messages, m ∈ db.group.messages) → parsed rt messages = .ok entries → P db →
      P (entries.foldl (handle rt env) (totals, db)).2 := by
    intro db messages entries totals hmem hparsed hdb
    obtain ⟨hok, hids⟩ := parsed_eq_ok rt hparsed
    have hhandled := foldl_handle_handled rt env entries (totals, db)
    rw [hids] at hhandled
    exact hhandle db _ messages (fun m hm => ⟨hmem m hm, hok m hm⟩) hhandled hdb
  cases hparsed : parsed rt (claimedMessages env db) with
  | error exc =>
    rw [processBatch_claim_error hparsed]
    exact hclaim db h
  | ok entries =>
    have h₂ := hbatch (afterClaim env db) (claimedMessages env db) entries {}
      (fun m hm => (outstanding_of_claimedMessages hm).1) hparsed (hclaim db h)
    rw [processBatch_claim_ok hparsed rfl]
    generalize entries.foldl (handle rt env) ({}, afterClaim env db) = acc at h₂ ⊢
    cases hparsed' : parsed rt (newMessages acc.2) with
    | error exc => exact hread _ h₂
    | ok entries' =>
      exact hbatch (afterRead env acc.2) (newMessages acc.2) entries' acc.1
        (fun m hm => (outstanding_of_newMessages hm).1) hparsed' (hread _ h₂)

/-! ### A refused entry stays -/

section Refused

variable {m : ι × Fields}

lemma not_mem_ids_of_refused {db : Streams ι} (hm : m ∈ db.group.messages)
    (hrefused : Refused rt m.2) {messages : List (ι × Fields)}
    (hmessages : ∀ m' ∈ messages, m' ∈ db.group.messages ∧ ¬ Refused rt m'.2) :
    m.1 ∉ messages.map Prod.fst := by
  intro hid
  obtain ⟨m', hm', heq⟩ := List.mem_map.mp hid
  obtain ⟨hmem, hok⟩ := hmessages m' hm'
  rw [Group.messages_unique hmem hm heq] at hok
  exact hok hrefused

/-- An outstanding message that is refused and has no dead letter. -/
def Stuck (m : ι × Fields) (letters : List (DeadLetter ι)) (db : Streams ι) : Prop :=
  db.group.Outstanding m ∧ ∀ l ∈ db.deadLetters, l.sourceEntryId = m.1 → l ∈ letters

lemma Stuck.step {letters : List (DeadLetter ι)} {db db' : Streams ι} (h : Stuck m letters db)
    (hrefused : Refused rt m.2) (hstep : Step rt β ρ db db') : Stuck m letters db' := by
  cases hstep with
  | publish ms hsorted => exact ⟨h.1.xadd ms hsorted, h.2⟩
  | pass env =>
    refine processBatch_preserves (fun db h => ⟨h.1.xautoclaim _ _ _ _, h.2⟩)
      (fun db h => ⟨h.1.xreadgroup _ _ _, h.2⟩) ?_ h
    intro db db' messages hmessages hhandled h
    have hid := not_mem_ids_of_refused h.1.1 hrefused hmessages
    refine ⟨hhandled.outstanding h.1 hid, fun l hl hsource => ?_⟩
    rcases hhandled.letters l hl with hl | hl
    · exact h.2 l hl hsource
    · exact absurd (hsource ▸ hl) hid

theorem refused_never_settled {db db' : Streams ι} (hm : db.group.Outstanding m)
    (hrefused : Refused rt m.2) (hrun : Run rt β ρ db db') : Stuck m db.deadLetters db' := by
  induction hrun with
  | refl => exact ⟨hm, fun l hl _ => hl⟩
  | tail _ hstep ih => exact ih.step hrefused hstep

end Refused

end AgenticDynamics.Knowledge
