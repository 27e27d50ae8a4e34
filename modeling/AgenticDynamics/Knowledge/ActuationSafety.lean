import AgenticDynamics.Library.Runs
import AgenticDynamics.Knowledge.ActuationGate

/-!
# What the gate guarantees

The gate goes by the source type that the caller names, and by an index that is written before
the event it stands for. The entries of actuations are armed and cite an observation as long as
the callers name the source types of their actuations and every index write has its event.
-/

namespace AgenticDynamics.Knowledge

open Python Runs

/-! ### The property -/

/-- An observation with the id is in the stream. -/
def Observes (entries : List Appended) (knowledgeId : String) : Prop :=
  ∃ o ∈ entries, o.event.knowledgeId = knowledgeId ∧ messageFamily o.recordType = .observation

/-- An actuation is armed, and cites an observation that was appended before it. -/
def Justifies (before : List Appended) (e : Appended) : Prop :=
  messageFamily e.recordType = .actuation →
    e.armed = true ∧ e.event.causes ≠ "" ∧ Observes before e.event.causes

def Redis.Gated (redis : Redis) (stream : String) : Prop :=
  Justified Justifies (redis.streams stream)

/-! ### The publications that are made -/

namespace Publication

def after (redis : Redis) (p : Publication) : Redis := (p.publishEvent redis).2

end Publication

def reached (failLoud : Bool) : List Publication → Redis → List Publication
  | [],        _     => []
  | p :: rest, redis =>
    match p.publishEvent redis with
    | (.ok _, redis)    => p :: reached failLoud rest redis
    | (.error _, redis) => if failLoud then [p] else p :: reached failLoud rest redis

def StreamCall.made (redis : Redis) : StreamCall → List Publication
  | publish p => [p]
  | register host environ connect records failLoud =>
    if connect.isSome then []
    else reached failLoud (records.map (Registration.publication host environ)) redis
  | reconcile environ stream expected knownIds =>
    reached true ((expected.filter fun x =>
      x.event.knowledgeId ≠ "" && x.event.knowledgeId ∉ knownIds).map
        (Expected.publication environ stream)) redis

/-- The publications of a sequence of calls. -/
def made : List StreamCall → Redis → List Publication
  | [],            _     => []
  | call :: calls, redis => call.made redis ++ made calls (call.run redis)

/-! ### The condition -/

/-- An actuation is appended to the stream under another source type, or under none, when it is
not armed or cites no observation there. -/
structure Misdeclared (stream : String) (redis : Redis) (p : Publication) : Prop where
  authorized : p.Authorized
  record : messageFamily p.recordType = .actuation
  declared : messageFamily p.sourceType ≠ .actuation
  indexed : p.sourceType ≠ "" → p.replies.hset.failure = none
  lands : p.stream = stream ∧ p.replies.xadd.Landed
  unjustified : ¬ Justifies (redis.streams stream) p.entry

/-- An id is indexed as an observation that is not in the stream, and the event of such an
observation is not appended there. -/
structure Unbacked (stream : String) (redis : Redis) (p : Publication) : Prop where
  authorized : p.Authorized
  declared : messageFamily p.sourceType = .observation ∧ p.sourceType ≠ ""
  indexed : p.replies.hset.Landed ∧ p.event.knowledgeId ≠ ""
  unobserved : ¬ Observes (redis.streams stream) p.event.knowledgeId
  missing : ¬ (p.replies.hset.failure = none ∧ p.replies.xadd.Landed ∧ p.stream = stream ∧
    messageFamily p.recordType = .observation)

/-- The publication neither slips past the gate nor leaves the index ahead of the stream. -/
def Faithful (stream : String) (redis : Redis) (p : Publication) : Prop :=
  ¬ Misdeclared stream redis p ∧ ¬ Unbacked stream redis p

section Gate

variable {p : Publication} {redis : Redis} {stream : String}

/-! ### What a publication does -/

@[simp] lemma Redis.append_streams {s : String} {e : Appended} :
    (redis.append s e).streams stream =
      if stream = s then redis.streams stream ++ [e] else redis.streams stream := by
  by_cases h : stream = s
  · subst h
    simp [Redis.append]
  · simp [Redis.append, h]

@[simp] lemma Redis.append_sourceTypeIndex {s : String} {e : Appended} :
    (redis.append s e).sourceTypeIndex = redis.sourceTypeIndex := rfl

@[simp] lemma Redis.index_streams {id sourceType : String} :
    (redis.index id sourceType).streams = redis.streams := rfl

@[simp] lemma Redis.index_sourceTypeIndex {id id' sourceType : String} :
    (redis.index id sourceType).sourceTypeIndex id' =
      if id' = id then some sourceType else redis.sourceTypeIndex id' := by
  by_cases h : id' = id
  · subst h
    simp [Redis.index]
  · simp [Redis.index, h]

lemma Reply.landed_of_failure {reply : Reply} (h : reply.failure = none) : reply.Landed := by
  cases reply with
  | done => trivial
  | lost detail => cases h
  | unheard detail => cases h

lemma Publication.add_snd : (p.add redis).2 =
    if p.replies.xadd.Landed then redis.append p.stream p.entry else redis := by
  unfold Publication.add
  cases p.replies.xadd.failure <;> rfl

lemma Publication.after_unauthorized (h : ¬ p.Authorized) : p.after redis = redis := by
  simp [Publication.after, Publication.publishEvent, h]

lemma Publication.after_actuation (hfamily : messageFamily p.sourceType = .actuation)
    (hauthorized : p.Authorized) :
    p.after redis =
      if p.Armed ∧ p.event.causes ≠ "" ∧ p.replies.hget.failure = none ∧
          redis.resolvesToObservation p.event.causes = true ∧ p.replies.xadd.Landed then
        redis.append p.stream p.entry
      else redis := by
  simp only [Publication.after, Publication.publishEvent, not_not.mpr hauthorized, hfamily,
    if_true, if_false]
  by_cases harmed : p.Armed
  · by_cases hcauses : p.event.causes = ""
    · simp [harmed, hcauses]
    · cases hget : p.replies.hget.failure with
      | some detail => simp [harmed, hcauses]
      | none =>
        by_cases hresolves : redis.resolvesToObservation p.event.causes = true
        · simp [harmed, hcauses, hresolves, add_snd]
        · simp [harmed, hcauses, hresolves]
  · simp [harmed]

lemma Publication.after_named (hfamily : messageFamily p.sourceType ≠ .actuation)
    (hnamed : p.sourceType ≠ "") (hauthorized : p.Authorized) :
    p.after redis =
      if p.replies.hset.Landed then
        if p.replies.hset.failure = none ∧ p.replies.xadd.Landed then
          (redis.index p.event.knowledgeId p.sourceType).append p.stream p.entry
        else redis.index p.event.knowledgeId p.sourceType
      else redis := by
  simp only [Publication.after, Publication.publishEvent, not_not.mpr hauthorized, hfamily,
    if_false, hnamed, ne_eq, not_false_eq_true, if_true]
  cases hset : p.replies.hset.failure with
  | some detail => simp
  | none => simp [Reply.landed_of_failure hset, add_snd]

lemma Publication.after_unnamed (hnamed : p.sourceType = "") (hauthorized : p.Authorized) :
    p.after redis =
      if p.replies.xadd.Landed then redis.append p.stream p.entry else redis := by
  have hfamily : messageFamily "" ≠ .actuation := by decide
  simp [Publication.after, Publication.publishEvent, hauthorized, hnamed, hfamily, add_snd]

lemma messageFamily_of_ne {sourceType : String} (h : messageFamily sourceType ≠ .actuation) :
    messageFamily sourceType = .observation := by
  cases hfamily : messageFamily sourceType with
  | observation => rfl
  | actuation => exact absurd hfamily h

/-! ### Runs -/

lemma publishAll_snd (failLoud : Bool) (ps : List Publication) (ids : List ℕ) (redis : Redis) :
    (publishAll failLoud ps ids redis).2 = (reached failLoud ps redis).foldl Publication.after redis := by
  induction ps generalizing ids redis with
  | nil => rfl
  | cons p ps ih =>
    have hafter : p.after redis = (p.publishEvent redis).2 := rfl
    simp only [publishAll, reached]
    rcases hp : p.publishEvent redis with ⟨_ | id, redis'⟩
    · rw [hp] at hafter
      cases failLoud with
      | true => simp [hafter]
      | false => simpa [hafter] using ih ids redis'
    · rw [hp] at hafter
      simpa [hafter] using ih (ids ++ [id]) redis'

lemma StreamCall.run_eq (call : StreamCall) :
    call.run redis = (call.made redis).foldl Publication.after redis := by
  cases call with
  | publish p => rfl
  | register host environ connect records failLoud =>
    cases connect with
    | some detail => rfl
    | none => exact publishAll_snd failLoud _ [] redis
  | reconcile environ stream expected knownIds => exact publishAll_snd true _ [] redis

lemma runCalls_eq (calls : List StreamCall) (redis : Redis) :
    runCalls calls redis = (made calls redis).foldl Publication.after redis := by
  induction calls generalizing redis with
  | nil => rfl
  | cons call calls ih =>
    rw [made, List.foldl_append, ← StreamCall.run_eq, ← ih]
    rfl

/-! ### The invariant -/

/-- Every entry is justified, and the index is not ahead of the stream. -/
structure Redis.Backed (stream : String) (redis : Redis) : Prop where
  gated : redis.Gated stream
  indexed : ∀ id, id ≠ "" → (redis.sourceTypeIndex id).isSome →
    Observes (redis.streams stream) id

lemma Observes.append {entries : List Appended} {id : String} (h : Observes entries id)
    (e : Appended) : Observes (entries ++ [e]) id := by
  obtain ⟨o, ho, hid⟩ := h
  exact ⟨o, List.mem_append_left _ ho, hid⟩

lemma Redis.initial_backed : Redis.initial.Backed stream where
  gated := justified_nil
  indexed id _ h := by cases h

lemma Redis.Backed.append (h : redis.Backed stream)
    (hlands : p.stream = stream → Justifies (redis.streams stream) p.entry) :
    (redis.append p.stream p.entry).Backed stream := by
  by_cases hstream : stream = p.stream
  · constructor
    · rw [Redis.Gated, Redis.append_streams, if_pos hstream]
      exact justified_concat.mpr ⟨h.gated, hlands hstream.symm⟩
    · intro id hid hsome
      rw [Redis.append_streams, if_pos hstream]
      exact (h.indexed id hid hsome).append p.entry
  · constructor
    · rw [Redis.Gated, Redis.append_streams, if_neg hstream]
      exact h.gated
    · intro id hid hsome
      rw [Redis.append_streams, if_neg hstream]
      exact h.indexed id hid hsome

lemma Faithful.justifies (h : Faithful stream redis p) (hauthorized : p.Authorized)
    (hfamily : messageFamily p.sourceType ≠ .actuation)
    (hindexed : p.sourceType ≠ "" → p.replies.hset.failure = none)
    (hlands : p.replies.xadd.Landed) (hstream : p.stream = stream) :
    Justifies (redis.streams stream) p.entry := by
  by_contra hnot
  refine h.1 ⟨hauthorized, ?_, hfamily, hindexed, ⟨hstream, hlands⟩, hnot⟩
  by_contra hrecord
  exact hnot fun h => absurd h hrecord

lemma Redis.Backed.index (h : redis.Backed stream) {id sourceType : String}
    (hid : id ≠ "" → Observes (redis.streams stream) id) :
    (redis.index id sourceType).Backed stream where
  gated := h.gated
  indexed id' hne hsome := by
    rw [Redis.index_streams]
    by_cases hsame : id' = id
    · subst hsame
      exact hid hne
    · rw [Redis.index_sourceTypeIndex, if_neg hsame] at hsome
      exact h.indexed id' hne hsome

lemma Redis.Backed.after (h : redis.Backed stream) (hp : Faithful stream redis p) :
    (p.after redis).Backed stream := by
  by_cases hauthorized : p.Authorized
  · by_cases hfamily : messageFamily p.sourceType = .actuation
    · rw [Publication.after_actuation hfamily hauthorized]
      split_ifs with hpasses
      · obtain ⟨harmed, hcauses, -, hresolves, -⟩ := hpasses
        have hsome : (redis.sourceTypeIndex p.event.causes).isSome := by
          cases hindex : redis.sourceTypeIndex p.event.causes with
          | none => simp [Redis.resolvesToObservation, hindex] at hresolves
          | some stype => rfl
        exact h.append fun _ _ => ⟨decide_eq_true harmed, hcauses, h.indexed _ hcauses hsome⟩
      · exact h
    · by_cases hnamed : p.sourceType = ""
      · rw [Publication.after_unnamed hnamed hauthorized]
        split_ifs with hlands
        · exact h.append fun hstream =>
            hp.justifies hauthorized hfamily (fun hne => absurd hnamed hne) hlands hstream
        · exact h
      · rw [Publication.after_named hfamily hnamed hauthorized]
        -- the id is observed before, or the publication brings the observation with it
        have hbrings : p.replies.hset.Landed → p.event.knowledgeId ≠ "" →
            ¬ Observes (redis.streams stream) p.event.knowledgeId →
              p.replies.hset.failure = none ∧ p.replies.xadd.Landed ∧ p.stream = stream ∧
                messageFamily p.recordType = .observation := by
          intro hset hid hunobserved
          by_contra hmissing
          exact hp.2 ⟨hauthorized, ⟨messageFamily_of_ne hfamily, hnamed⟩, ⟨hset, hid⟩, hunobserved,
            hmissing⟩
        split_ifs with hset hlands
        · have hadded := h.append fun hstream =>
            hp.justifies hauthorized hfamily (fun _ => hlands.1) hlands.2 hstream
          refine hadded.index fun hid => ?_
          by_cases hobserved : Observes (redis.streams stream) p.event.knowledgeId
          · rw [Redis.append_streams]
            split_ifs
            · exact hobserved.append p.entry
            · exact hobserved
          · obtain ⟨-, -, hstream, hrecord⟩ := hbrings hset hid hobserved
            rw [Redis.append_streams, if_pos hstream.symm]
            exact ⟨p.entry, List.mem_append_right _ (List.mem_singleton_self _), rfl, hrecord⟩
        · refine h.index fun hid => ?_
          by_contra hunobserved
          obtain ⟨hfailure, hadded, -⟩ := hbrings hset hid hunobserved
          exact hlands ⟨hfailure, hadded⟩
        · exact h
  · rw [Publication.after_unauthorized hauthorized]
    exact h

/-! ### The converse -/

lemma Misdeclared.not_gated (h : Misdeclared stream redis p) : ¬ (p.after redis).Gated stream := by
  intro hgated
  have hstream : (p.after redis).streams stream = redis.streams stream ++ [p.entry] := by
    by_cases hnamed : p.sourceType = ""
    · rw [Publication.after_unnamed hnamed h.authorized, if_pos h.lands.2, Redis.append_streams,
        if_pos h.lands.1.symm]
    · have hset := h.indexed hnamed
      rw [Publication.after_named h.declared hnamed h.authorized,
        if_pos (Reply.landed_of_failure hset), if_pos ⟨hset, h.lands.2⟩, Redis.append_streams,
        if_pos h.lands.1.symm]
      rfl
  rw [Redis.Gated, hstream] at hgated
  exact h.unjustified (justified_concat.mp hgated).2

def citing (stream knowledgeId : String) : Publication where
  event :=
    { knowledgeId := "actuation", entityId := "entity", operation := "upsert", sourceUri := ""
      sourceRevision := "", contentHash := "", occurredAt := "", schemaVersion := "kb/v1"
      causes := knowledgeId }
  recordType := "actuation"
  stream := stream
  authorized := true
  armed := true
  sourceType := "actuation"

lemma citing_after {id stype : String} (hid : id ≠ "") (hindex : redis.sourceTypeIndex id = some stype)
    (hnamed : stype ≠ "") (hfamily : messageFamily stype = .observation) :
    (citing stream id).after redis = redis.append stream (citing stream id).entry := by
  have hresolves : redis.resolvesToObservation id = true := by
    simp [Redis.resolvesToObservation, hindex, hnamed, hfamily]
  have hactuation : messageFamily (citing stream id).sourceType = .actuation := by
    show messageFamily "actuation" = _
    decide
  have hauthorized : (citing stream id).Authorized := .inl rfl
  have harmed : (citing stream id).Armed := .inl rfl
  rw [Publication.after_actuation hactuation hauthorized,
    if_pos ⟨harmed, hid, rfl, hresolves, trivial⟩]
  rfl

lemma Unbacked.not_gated (h : Unbacked stream redis p) :
    ¬ ((citing stream p.event.knowledgeId).after (p.after redis)).Gated stream := by
  obtain ⟨hauthorized, ⟨hfamily, hnamed⟩, ⟨hset, hid⟩, hunobserved, hmissing⟩ := h
  have hne : messageFamily p.sourceType ≠ .actuation := by
    rw [hfamily]
    decide
  have hindex : (p.after redis).sourceTypeIndex p.event.knowledgeId = some p.sourceType := by
    rw [Publication.after_named hne hnamed hauthorized, if_pos hset]
    split_ifs <;> simp
  have hunobserved : ¬ Observes ((p.after redis).streams stream) p.event.knowledgeId := by
    rw [Publication.after_named hne hnamed hauthorized, if_pos hset]
    split_ifs with hlands
    · rw [Redis.append_streams, Redis.index_streams]
      split_ifs with hstream
      · rintro ⟨o, ho, hoid, hrecord⟩
        rcases List.mem_append.mp ho with ho | ho
        · exact hunobserved ⟨o, ho, hoid, hrecord⟩
        · rw [List.mem_singleton.mp ho] at hrecord
          exact hmissing ⟨hlands.1, hlands.2, hstream.symm, hrecord⟩
      · exact hunobserved
    · exact hunobserved
  rw [citing_after hid hindex hnamed hfamily, Redis.Gated, Redis.append_streams, if_pos rfl]
  intro hgated
  have hactuation : messageFamily (citing stream p.event.knowledgeId).entry.recordType =
      .actuation := by
    show messageFamily "actuation" = _
    decide
  exact hunobserved ((justified_concat.mp hgated).2 hactuation).2.2

/-! ### The gate over runs -/

lemma runCalls_append (calls calls' : List StreamCall) (redis : Redis) :
    runCalls (calls ++ calls') redis = runCalls calls' (runCalls calls redis) :=
  List.foldl_append ..

/-- Along runs whose publications all name the source types of their actuations and leave no
index write without its event, every actuation is armed and cites an observation before it; a
publication that does not is at most one call away from one that is not. -/
theorem actuations_gated (stream : String) :
    (∀ calls, Along Publication.after (Faithful stream) .initial (made calls .initial) →
      (runCalls calls .initial).Gated stream) ∧
    ∀ calls p, ¬ Faithful stream (runCalls calls .initial) p →
      ∃ more, ¬ (runCalls (calls ++ .publish p :: more) .initial).Gated stream := by
  constructor
  · intro calls h
    rw [runCalls_eq]
    exact (h.preserves (fun _ _ hinv hp => hinv.after hp) Redis.initial_backed).gated
  · intro calls p h
    rw [Faithful, not_and_or, not_not, not_not] at h
    rcases h with h | h
    · refine ⟨[], ?_⟩
      rw [runCalls_append]
      exact h.not_gated
    · refine ⟨[.publish (citing stream p.event.knowledgeId)], ?_⟩
      rw [runCalls_append]
      exact h.not_gated

/-! ### Two runs -/

/-- An observation, published under its source type. -/
def observing : Publication where
  event :=
    { knowledgeId := "observation", entityId := "entity", operation := "upsert", sourceUri := ""
      sourceRevision := "", contentHash := "", occurredAt := "", schemaVersion := "kb/v1" }
  recordType := "observation"
  authorized := true
  sourceType := "observation"

/-- An armed actuation that cites what was published before it. -/
theorem actuations_gated_cited :
    (runCalls [.publish observing, .publish (citing "kb:v1:changes" "observation")]
      .initial).Gated "kb:v1:changes" := by
  refine (actuations_gated "kb:v1:changes").1
    [.publish observing, .publish (citing "kb:v1:changes" "observation")] ⟨⟨?_, ?_⟩, ⟨?_, ?_⟩, trivial⟩
  · intro h
    exact absurd h.record (by decide)
  · intro h
    exact h.missing ⟨rfl, trivial, rfl, by decide⟩
  · intro h
    exact h.declared (by decide)
  · intro h
    exact absurd h.declared.1 (by decide)

/-- The event of an actuation that the stores do not have. -/
def lostActuation : Expected where
  event :=
    { knowledgeId := "actuation", entityId := "entity", operation := "upsert", sourceUri := ""
      sourceRevision := "", contentHash := "", occurredAt := "", schemaVersion := "kb/v1" }
  recordType := "actuation"

/-- `FINOPS_KB_WRITE=1`, and nothing else. -/
def writerEnviron (name : String) : Option String :=
  if name = "FINOPS_KB_WRITE" then some "1" else none

/-- A reconciliation appends an actuation that is neither armed nor justified. -/
theorem reconciled_actuation_ungated :
    ¬ (runCalls [.reconcile writerEnviron "kb:v1:changes" [lostActuation] []] .initial).Gated
      "kb:v1:changes" := by
  intro h
  have hstream : (runCalls [.reconcile writerEnviron "kb:v1:changes" [lostActuation] []]
      .initial).streams "kb:v1:changes" =
        [(lostActuation.publication writerEnviron "kb:v1:changes").entry] := by
    rfl
  rw [Redis.Gated, hstream] at h
  obtain ⟨harmed, -⟩ := h [] _ [] rfl (by decide)
  exact absurd harmed (by decide)

end Gate

end AgenticDynamics.Knowledge
