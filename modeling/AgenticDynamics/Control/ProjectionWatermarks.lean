import Mathlib.Order.WithBot
import AgenticDynamics.Library.ConsumerGroups
import AgenticDynamics.Library.Runs

/-!
# How far a projection has come

A projection reports the stream id up to which it is done. Its consumers report what they
acknowledged last, observers report what the group's position lets them conclude, and both read
the position and the row on record before they write.

One group of the stream is modelled, with its row. Ids are of any linear order; below them all is
the id of a group that was delivered nothing, and of a row that is not there.
-/

namespace AgenticDynamics.Control

open ConsumerGroups Runs

variable {ι φ : Type} [LinearOrder ι]

/-! ### The confirmed id -/

/-- What a reading tells of the group: the furthest id handed to a consumer, and how many messages
are not acknowledged. -/
structure ConsumerPosition (ι : Type) where
  lastDeliveredId : WithBot ι
  pending : ℕ

def confirmedEventId (position : ConsumerPosition ι) (ackedEventId : Option ι)
    (previous : WithBot ι) : WithBot ι :=
  match ackedEventId with
  | some id => id
  | none    => if position.pending = 0 then position.lastDeliveredId else previous

/-! ### Consumers and observers -/

/-- Where a caller stands in its report: the position is read in two commands, then the row. -/
inductive Report (ι : Type)
  | idle
  | delivered (lastDeliveredId : WithBot ι)
  | counted (position : ConsumerPosition ι)
  | recording (position : ConsumerPosition ι) (previous : WithBot ι)
  | failing (previous : WithBot ι)

/-- A caller: the entries of its batch that are still to be handled, the one it acknowledged last,
and its report. An observer has no entries. -/
structure Caller (ι : Type) where
  todo : List ι := []
  lastAckedId : Option ι := none
  report : Report ι := .idle

/-- The group with its callers, the ids acknowledged so far, and the ids that were recorded, the
latest first. -/
structure Projection (ι φ : Type) [LinearOrder ι] where
  group : Group ι φ
  acked : List ι := []
  callers : ℕ → Caller ι := fun _ => {}
  history : List (WithBot ι) := []

inductive ProjectionStep (ι φ : Type)
  | publish (id : ι) (fields : φ)
  | claimPending (caller : ℕ) (consumer : String) (now minIdle count : ℕ)
  | readEvents (caller : ℕ) (consumer : String) (now count : ℕ)
  /-- The next entry is handled or given up on. -/
  | settle (caller : ℕ)
  /-- The next entry stays pending. -/
  | retry (caller : ℕ)
  | xinfoGroups (caller : ℕ)
  | xpending (caller : ℕ)
  | getWatermark (caller : ℕ)
  | recordWatermark (caller : ℕ)
  /-- The batch or the reading raised, and `record_error` reads the row. -/
  | fail (caller : ℕ)
  /-- The report itself raised. -/
  | abandon (caller : ℕ)

namespace Projection

lemma sorted_concat {group : Group ι φ} {id : ι} {fields : φ}
    (h : ∀ m ∈ group.messages, m.1 < id) :
    ((group.messages ++ [(id, fields)]).map Prod.fst).Pairwise (· < ·) := by
  rw [List.map_append, List.pairwise_append]
  refine ⟨group.messages_sorted, List.pairwise_singleton _ _, fun a ha b hb => ?_⟩
  obtain ⟨m, hm, rfl⟩ := List.mem_map.mp ha
  rw [List.map_singleton, List.mem_singleton] at hb
  rw [hb]
  exact h m hm

def frontier (p : Projection ι φ) : WithBot ι := p.group.lastDelivered.elim ⊥ (↑)

/-- `last_event_id` of the row. -/
def recorded (p : Projection ι φ) : WithBot ι := p.history.headD ⊥

def set (k : ℕ) (c : Caller ι) (p : Projection ι φ) : Projection ι φ :=
  { p with callers := Function.update p.callers k c }

def step (p : Projection ι φ) : ProjectionStep ι φ → Projection ι φ
  | .publish id fields                          =>
    if h : ∀ m ∈ p.group.messages, m.1 < id then
      { p with group := p.group.xadd [(id, fields)] (sorted_concat h) }
    else p
  | .claimPending k consumer now minIdle count  =>
    let (messages, _, group) := p.group.xautoclaim consumer now minIdle count
    { p with group := group }.set k
      { p.callers k with todo := (p.callers k).todo ++ messages.map Prod.fst }
  | .readEvents k consumer now count            =>
    let (messages, group) := p.group.xreadgroup consumer now count
    { p with group := group }.set k
      { p.callers k with todo := (p.callers k).todo ++ messages.map Prod.fst }
  | .settle k                                   =>
    match (p.callers k).todo with
    | []         => p
    | id :: rest =>
      { p with group := p.group.xack [id], acked := id :: p.acked }.set k
        { p.callers k with todo := rest, lastAckedId := some id }
  | .retry k                                    =>
    p.set k { p.callers k with todo := (p.callers k).todo.tail }
  | .xinfoGroups k                              =>
    match (p.callers k).report with
    | .idle => p.set k { p.callers k with report := .delivered p.frontier }
    | _     => p
  | .xpending k                                 =>
    match (p.callers k).report with
    | .delivered lastDeliveredId =>
      p.set k { p.callers k with report := .counted ⟨lastDeliveredId, p.group.pending.length⟩ }
    | _                          => p
  | .getWatermark k                             =>
    match (p.callers k).report with
    | .counted position =>
      p.set k { p.callers k with report := .recording position p.recorded }
    | _                 => p
  | .recordWatermark k                          =>
    match (p.callers k).report with
    | .recording position previous =>
      { p with
        history := confirmedEventId position (p.callers k).lastAckedId previous :: p.history }.set k
          { p.callers k with lastAckedId := none, report := .idle }
    | .failing previous            => { p with history := previous :: p.history }.set k {}
    | _                            => p
  | .fail k                                     => p.set k { report := .failing p.recorded }
  | .abandon k                                  => p.set k {}

/-- The group was just created, at the origin of a stream that has no entries yet. -/
def start : Projection ι φ where
  group :=
    { messages := [], lastDelivered := none, pending := [], messages_sorted := List.Pairwise.nil
      pending_sorted := List.Pairwise.nil
      pending_delivered := fun _ hp => absurd hp List.not_mem_nil }

/-! ### What is promised -/

/-- Every message of the stream up to the id was acknowledged. -/
def Confirmed (p : Projection ι φ) (x : WithBot ι) : Prop :=
  ∀ m ∈ p.group.messages, (m.1 : WithBot ι) ≤ x → m.1 ∈ p.acked

/-- The id on record is confirmed, and it never went backwards. -/
def Honest (p : Projection ι φ) : Prop :=
  p.Confirmed p.recorded ∧ p.history.Pairwise fun later earlier => earlier ≤ later

/-- Nothing recorded meanwhile is ahead of what a caller is about to record, and nothing up to the
entry that it reports as acknowledged is still pending. -/
def Timely (p : Projection ι φ) : ProjectionStep ι φ → Prop
  | .recordWatermark k =>
    match (p.callers k).report with
    | .recording position previous =>
      match (p.callers k).lastAckedId with
      | some id => p.recorded ≤ id ∧ ∀ q ∈ p.group.pending, id < q.messageId
      | none    =>
        p.recorded ≤ if position.pending = 0 then position.lastDeliveredId else previous
    | .failing previous => p.recorded ≤ previous
    | _ => True
  | _ => True

/-! ### What every run keeps -/

/-- Every id that the stream can still give out is greater. -/
def Old (p : Projection ι φ) (x : WithBot ι) : Prop :=
  ∀ id : ι, (∀ m ∈ p.group.messages, m.1 < id) → x < id

lemma old_of_mem {p : Projection ι φ} {m : ι × φ} (hm : m ∈ p.group.messages) :
    p.Old (m.1 : WithBot ι) := fun _ h => WithBot.coe_lt_coe.mpr (h m hm)

lemma old_bot (p : Projection ι φ) : p.Old ⊥ := fun id _ => WithBot.bot_lt_coe id

/-- The id of a message that was handed to a consumer. -/
def Delivered (p : Projection ι φ) (id : ι) : Prop :=
  ↑id ≤ p.frontier ∧ ∃ m ∈ p.group.messages, m.1 = id

/-- A caller handles and reports entries that were delivered; the position it read is one the
group had, confirmed if nothing was pending; the row it read was on record. -/
structure CallerSound (p : Projection ι φ) (c : Caller ι) : Prop where
  todo : ∀ id ∈ c.todo, p.Delivered id
  lastAcked : ∀ id, c.lastAckedId = some id → p.Delivered id
  delivered : ∀ d, c.report = .delivered d → d ≤ p.frontier
  position : ∀ position previous, c.report = .counted position ∨
    c.report = .recording position previous →
    position.lastDeliveredId ≤ p.frontier ∧
      (position.pending = 0 → p.Confirmed position.lastDeliveredId)
  previous : ∀ position previous, c.report = .recording position previous ∨
    c.report = .failing previous → previous ∈ p.history ∨ previous = ⊥

/-- A message that was delivered is pending or was acknowledged, and never both. -/
structure GroupSound (p : Projection ι φ) : Prop where
  settled : ∀ m ∈ p.group.messages, (m.1 : WithBot ι) ≤ p.frontier →
    ((∃ q ∈ p.group.pending, q.messageId = m.1) ↔ m.1 ∉ p.acked)
  pendingDelivered : ∀ q ∈ p.group.pending, p.Delivered q.messageId
  ackedDelivered : ∀ id ∈ p.acked, p.Delivered id
  frontierOld : p.Old p.frontier
  historyOld : ∀ x ∈ p.history, p.Old x

structure Sound (p : Projection ι φ) : Prop extends GroupSound p where
  callers : ∀ k, p.CallerSound (p.callers k)

/-- What a step does to everything but the callers. -/
structure Extends (p p' : Projection ι φ) : Prop where
  messages : ∀ m ∈ p.group.messages, m ∈ p'.group.messages
  acked : ∀ id ∈ p.acked, id ∈ p'.acked
  frontier : p.frontier ≤ p'.frontier
  history : ∀ x ∈ p.history, x ∈ p'.history
  new : ∀ m ∈ p'.group.messages, m ∈ p.group.messages ∨ ∀ m' ∈ p.group.messages, m'.1 < m.1

variable {p p' : Projection ι φ} {c : Caller ι} {x : WithBot ι}

lemma Extends.old (h : Extends p p') (hx : p.Old x) : p'.Old x :=
  fun id hid => hx id fun m hm => hid m (h.messages m hm)

lemma Extends.confirmed (h : Extends p p') (hold : p.Old x) (hx : p.Confirmed x) :
    p'.Confirmed x := by
  intro m hm hle
  rcases h.new m hm with hm | hfresh
  · exact h.acked _ (hx m hm hle)
  · exact absurd (hold m.1 hfresh) (not_lt.mpr hle)

lemma Extends.delivered {id : ι} (h : Extends p p') (hid : p.Delivered id) : p'.Delivered id := by
  obtain ⟨hle, m, hm, hmid⟩ := hid
  exact ⟨hle.trans h.frontier, m, h.messages m hm, hmid⟩

lemma CallerSound.mono (hp : Sound p) (h : Extends p p') (hc : p.CallerSound c) :
    p'.CallerSound c where
  todo := fun id hid => h.delivered (hc.todo id hid)
  lastAcked := fun id hid => h.delivered (hc.lastAcked id hid)
  delivered := fun d hd => (hc.delivered d hd).trans h.frontier
  position := by
    intro position previous hreport
    obtain ⟨hle, hconfirmed⟩ := hc.position position previous hreport
    refine ⟨hle.trans h.frontier, fun hzero => h.confirmed (fun id hid => ?_) (hconfirmed hzero)⟩
    exact lt_of_le_of_lt hle (hp.frontierOld id hid)
  previous := by
    intro position previous hreport
    exact (hc.previous position previous hreport).imp_left (h.history previous)

lemma Sound.extend (hp : Sound p) (h : Extends p p') (hcallers : p'.callers = p.callers)
    (hgroup : GroupSound p') : Sound p' := by
  refine ⟨hgroup, fun k => ?_⟩
  rw [hcallers]
  exact (hp.callers k).mono hp h

lemma Sound.set (hp : Sound p) (k : ℕ) (hc : p.CallerSound c) : Sound (p.set k c) := by
  refine ⟨⟨hp.settled, hp.pendingDelivered, hp.ackedDelivered, hp.frontierOld, hp.historyOld⟩,
    fun j => ?_⟩
  by_cases hj : j = k
  · have hself : (p.set k c).callers j = c := by
      rw [hj]
      exact Function.update_self k c p.callers
    rw [hself]
    exact ⟨hc.todo, hc.lastAcked, hc.delivered, hc.position, hc.previous⟩
  · have hother : (p.set k c).callers j = p.callers j := by
      show Function.update p.callers k c j = p.callers j
      exact Function.update_of_ne hj c p.callers
    have hsame := hp.callers j
    rw [hother]
    exact ⟨hsame.todo, hsame.lastAcked, hsame.delivered, hsame.position, hsame.previous⟩

lemma recorded_mem (p : Projection ι φ) : p.recorded ∈ p.history ∨ p.recorded = ⊥ := by
  rw [recorded]
  cases p.history with
  | nil => exact .inr rfl
  | cons x xs => exact .inl List.mem_cons_self

lemma callerSound_empty (p : Projection ι φ) : p.CallerSound {} where
  todo := fun _ hid => absurd hid List.not_mem_nil
  lastAcked := fun _ hid => by cases hid
  delivered := fun _ hd => by cases hd
  position := fun _ _ h => by rcases h with h | h <;> cases h
  previous := fun _ _ h => by rcases h with h | h <;> cases h

lemma CallerSound.append (hc : p.CallerSound c) {ids : List ι}
    (hids : ∀ id ∈ ids, p.Delivered id) :
    p.CallerSound { c with todo := c.todo ++ ids } :=
  ⟨fun id hid => (List.mem_append.mp hid).elim (hc.todo id) (hids id), hc.lastAcked, hc.delivered,
    hc.position, hc.previous⟩

lemma Extends.xautoclaim (p : Projection ι φ) (consumer : String) (now minIdle count : ℕ) :
    Extends p { p with group := (p.group.xautoclaim consumer now minIdle count).2.2 } :=
  ⟨fun _ hm => hm, fun _ h => h, le_refl _, fun _ h => h, fun _ hm => .inl hm⟩

lemma Extends.xack (p : Projection ι φ) (id : ι) :
    Extends p { p with group := p.group.xack [id], acked := id :: p.acked } :=
  ⟨fun _ hm => hm, fun _ h => List.mem_cons_of_mem _ h, le_refl _, fun _ h => h,
    fun _ hm => .inl hm⟩

lemma Extends.xreadgroup (p : Projection ι φ) (consumer : String) (now count : ℕ) :
    Extends p { p with group := (p.group.xreadgroup consumer now count).2 } := by
  refine ⟨fun _ hm => hm, fun _ h => h, ?_, fun _ h => h, fun _ hm => .inl hm⟩
  show p.group.lastDelivered.elim ⊥ (↑) ≤ ((p.group.lastOf count).elim ⊥ (↑) : WithBot ι)
  cases hl : p.group.lastDelivered with
  | none => exact bot_le
  | some l =>
    obtain ⟨l', hl', hle⟩ := p.group.lastDelivered_le_lastOf count hl
    rw [Option.mem_def.mp hl']
    exact WithBot.coe_le_coe.mpr hle

lemma ne_of_undelivered (p : Projection ι φ) {n : ℕ} {m m' : ι × φ}
    (hm' : m' ∈ p.group.undelivered.take n) (hm : (m.1 : WithBot ι) ≤ p.frontier) : m'.1 ≠ m.1 := by
  intro heq
  have hlater := (Group.mem_undelivered.mp (List.mem_of_mem_take hm')).2
  rw [frontier] at hm
  cases hl : p.group.lastDelivered with
  | none =>
    rw [hl] at hm
    exact absurd hm (not_le.mpr (WithBot.bot_lt_coe m.1))
  | some l =>
    rw [hl] at hm
    have hlt := hlater l hl
    rw [heq] at hlt
    exact absurd (WithBot.coe_le_coe.mp hm) (not_le.mpr hlt)

lemma Extends.xadd {id : ι} {fields : φ}
    (hsorted : ((p.group.messages ++ [(id, fields)]).map Prod.fst).Pairwise (· < ·))
    (hfresh : ∀ m ∈ p.group.messages, m.1 < id) :
    Extends p { p with group := p.group.xadd [(id, fields)] hsorted } where
  messages := fun _ hm => List.mem_append_left _ hm
  acked := fun _ h => h
  frontier := le_refl _
  history := fun _ h => h
  new := by
    intro m hm
    refine (List.mem_append.mp hm).imp_right fun hm => ?_
    rwa [List.mem_singleton.mp hm]

lemma Sound.publish (hp : Sound p) (id : ι) (fields : φ) : Sound (p.step (.publish id fields)) := by
  rw [Projection.step]
  split_ifs with hfresh
  · have hext : Extends p { p with group := p.group.xadd [(id, fields)] (sorted_concat hfresh) } :=
      .xadd _ hfresh
    refine hp.extend hext rfl ⟨fun m hm hle => ?_, ?_, ?_, ?_, ?_⟩
    · rcases List.mem_append.mp hm with hm | hm
      · exact hp.settled m hm hle
      · rw [List.mem_singleton.mp hm] at hle
        exact absurd (hp.frontierOld id hfresh) (not_lt.mpr hle)
    · exact fun q hq => hext.delivered (hp.pendingDelivered q hq)
    · exact fun id' hid' => hext.delivered (hp.ackedDelivered id' hid')
    · exact hext.old hp.frontierOld
    · exact fun x hx => hext.old (hp.historyOld x hx)
  · exact hp

lemma Sound.claimPending (hp : Sound p) (k : ℕ) (consumer : String) (now minIdle count : ℕ) :
    Sound (p.step (.claimPending k consumer now minIdle count)) := by
  have hext := Extends.xautoclaim p consumer now minIdle count
  have hgroup := hp.extend hext rfl ⟨fun m hm hle => ?_, fun q hq => ?_, hp.ackedDelivered,
    hp.frontierOld, hp.historyOld⟩
  · refine hgroup.set k (((hp.callers k).mono hp hext).append fun id hid => ?_)
    obtain ⟨m, hm, rfl⟩ := List.mem_map.mp hid
    obtain ⟨-, q, hq, hid⟩ := claimScan_messages hm
    exact hid ▸ hext.delivered (hp.pendingDelivered q hq)
  · rw [← hp.settled m hm hle]
    constructor
    · rintro ⟨q, hq, hid⟩
      obtain ⟨q', hq', hid'⟩ := claimScan_pending hq
      exact ⟨q', hq', hid'.symm.trans hid⟩
    · rintro ⟨q, hq, hid⟩
      have hfields : (p.group.fields? q.messageId).isSome := by
        have hm' : m ∈ p.group.messages := hm
        rw [hid, Group.fields?_of_mem hm']
        rfl
      obtain ⟨q', hq', hid', -⟩ := claimScan_keeps hq hfields
      exact ⟨q', hq', hid'.trans hid⟩
  · obtain ⟨q', hq', hid⟩ := claimScan_pending hq
    exact hid ▸ hext.delivered (hp.pendingDelivered q' hq')

lemma Sound.readEvents (hp : Sound p) (k : ℕ) (consumer : String) (now count : ℕ) :
    Sound (p.step (.readEvents k consumer now count)) := by
  have hext := Extends.xreadgroup p consumer now count
  have htaken : ∀ m ∈ p.group.undelivered.take count,
      Delivered { p with group := (p.group.xreadgroup consumer now count).2 } m.1 := by
    intro m hm
    refine ⟨?_, m, (Group.mem_undelivered.mp (List.mem_of_mem_take hm)).1, rfl⟩
    obtain ⟨l, hl, hle⟩ := p.group.le_lastOf count hm
    show (m.1 : WithBot ι) ≤ (p.group.lastOf count).elim ⊥ (↑)
    rw [Option.mem_def.mp hl]
    exact WithBot.coe_le_coe.mpr hle
  have hgroup := hp.extend hext rfl ⟨fun m hm hle => ?_, fun q hq => ?_,
    fun id hid => hext.delivered (hp.ackedDelivered id hid), ?_, hp.historyOld⟩
  · refine hgroup.set k (((hp.callers k).mono hp hext).append fun id hid => ?_)
    obtain ⟨m, hm, rfl⟩ := List.mem_map.mp hid
    exact htaken m hm
  · by_cases hdelivered : (m.1 : WithBot ι) ≤ p.frontier
    · rw [← hp.settled m hm hdelivered]
      constructor
      · rintro ⟨q, hq, hid⟩
        rcases List.mem_append.mp hq with hq | hq
        · exact ⟨q, hq, hid⟩
        · obtain ⟨m', hm', rfl⟩ := List.mem_map.mp hq
          exact absurd (show m'.1 = m.1 from hid) (p.ne_of_undelivered hm' hdelivered)
      · rintro ⟨q, hq, hid⟩
        exact ⟨q, List.mem_append_left _ hq, hid⟩
    · -- the message was handed out by this reading
      refine iff_of_true ?_ fun hacked => hdelivered (hp.ackedDelivered m.1 hacked).1
      have hundelivered : m ∈ p.group.undelivered := by
        refine Group.mem_undelivered.mpr ⟨hm, fun l hl => ?_⟩
        rw [frontier, Option.mem_def.mp hl] at hdelivered
        exact WithBot.coe_lt_coe.mp (not_le.mp hdelivered)
      rw [← List.take_append_drop count p.group.undelivered] at hundelivered
      rcases List.mem_append.mp hundelivered with htaken | hleft
      · exact ⟨_, List.mem_append_right _ (List.mem_map_of_mem htaken), rfl⟩
      · rw [← Group.xreadgroup_undelivered p.group consumer now count] at hleft
        have hlater := (Group.mem_undelivered.mp hleft).2
        have hlt : ((p.group.lastOf count).elim ⊥ (↑) : WithBot ι) < m.1 := by
          cases hl : p.group.lastOf count with
          | none => exact WithBot.bot_lt_coe m.1
          | some l => exact WithBot.coe_lt_coe.mpr (hlater l hl)
        exact absurd hle (not_le.mpr hlt)
  · rcases List.mem_append.mp hq with hq | hq
    · exact hext.delivered (hp.pendingDelivered q hq)
    · obtain ⟨m, hm, rfl⟩ := List.mem_map.mp hq
      exact htaken m hm
  · show p.Old ((p.group.lastOf count).elim ⊥ (↑))
    rw [Group.lastOf]
    cases hl : (p.group.undelivered.take count).getLast? with
    | none => exact hp.frontierOld
    | some m =>
      have hm := List.mem_of_mem_take (List.mem_of_getLast? hl)
      exact old_of_mem (Group.mem_undelivered.mp hm).1

lemma Sound.settle (hp : Sound p) (k : ℕ) : Sound (p.step (.settle k)) := by
  rw [Projection.step]
  split
  · exact hp
  · rename_i id rest htodo
    have hext := Extends.xack p id
    have hid : p.Delivered id := (hp.callers k).todo id (by rw [htodo]; exact List.mem_cons_self)
    have hgroup := hp.extend hext rfl ⟨fun m hm hle => ?_, fun q hq => ?_, fun id' hid' => ?_,
      hp.frontierOld, hp.historyOld⟩
    · have hcaller := (hp.callers k).mono hp hext
      refine hgroup.set k ⟨fun id' hid' => hcaller.todo id' ?_, fun id' hid' => ?_,
        hcaller.delivered, hcaller.position, hcaller.previous⟩
      · rw [htodo]
        exact List.mem_cons_of_mem _ hid'
      · cases hid'
        exact hid
    · rw [List.mem_cons, not_or, ← hp.settled m hm hle]
      constructor
      · rintro ⟨q, hq, hqid⟩
        obtain ⟨hq, hne⟩ := p.group.mem_xack.mp hq
        rw [List.mem_singleton, hqid] at hne
        exact ⟨hne, q, hq, hqid⟩
      · rintro ⟨hne, q, hq, hqid⟩
        refine ⟨q, p.group.mem_xack.mpr ⟨hq, ?_⟩, hqid⟩
        rwa [List.mem_singleton, hqid]
    · exact hp.pendingDelivered q (p.group.mem_xack.mp hq).1
    · rcases List.mem_cons.mp hid' with rfl | hid'
      · exact hid
      · exact hp.ackedDelivered id' hid'

lemma Sound.report (hp : Sound p) (k : ℕ) {r : Report ι}
    (hdelivered : ∀ d, r = .delivered d → d ≤ p.frontier)
    (hposition : ∀ position previous, r = .counted position ∨ r = .recording position previous →
      position.lastDeliveredId ≤ p.frontier ∧
        (position.pending = 0 → p.Confirmed position.lastDeliveredId))
    (hprevious : ∀ position previous, r = .recording position previous ∨ r = .failing previous →
      previous ∈ p.history ∨ previous = ⊥) :
    Sound (p.set k { p.callers k with report := r }) :=
  hp.set k ⟨(hp.callers k).todo, (hp.callers k).lastAcked, hdelivered, hposition, hprevious⟩

lemma Sound.confirmed_iff (hp : Sound p) (hx : x ≤ p.frontier) :
    p.Confirmed x ↔ ∀ q ∈ p.group.pending, x < q.messageId := by
  constructor
  · intro hconfirmed q hq
    by_contra hle
    obtain ⟨hdelivered, m, hm, hid⟩ := hp.pendingDelivered q hq
    rw [← hid] at hdelivered hle
    exact (hp.settled m hm hdelivered).mp ⟨q, hq, hid.symm⟩ (hconfirmed m hm (not_lt.mp hle))
  · intro hpending m hm hle
    by_contra hacked
    obtain ⟨q, hq, hid⟩ := (hp.settled m hm (hle.trans hx)).mpr hacked
    exact absurd (hpending q hq) (by rw [hid]; exact not_lt.mpr hle)

lemma Sound.old_confirmedEventId (hp : Sound p) {k : ℕ} {position : ConsumerPosition ι}
    {previous : WithBot ι} (hreport : (p.callers k).report = .recording position previous) :
    p.Old (confirmedEventId position (p.callers k).lastAckedId previous) := by
  have hcaller := hp.callers k
  cases hacked : (p.callers k).lastAckedId with
  | some id =>
    obtain ⟨-, m, hm, rfl⟩ := hcaller.lastAcked id hacked
    exact old_of_mem hm
  | none =>
    rw [confirmedEventId]
    split_ifs with hzero
    · have hle := (hcaller.position position previous (.inr hreport)).1
      exact fun id hid => lt_of_le_of_lt hle (hp.frontierOld id hid)
    · rcases hcaller.previous position previous (.inl hreport) with hmem | rfl
      · exact hp.historyOld previous hmem
      · exact p.old_bot

lemma Sound.record (hp : Sound p) (hx : p.Old x) : Sound { p with history := x :: p.history } := by
  refine hp.extend ⟨fun _ h => h, fun _ h => h, le_refl _, fun _ h => List.mem_cons_of_mem _ h,
    fun _ h => .inl h⟩ rfl ⟨hp.settled, hp.pendingDelivered, hp.ackedDelivered, hp.frontierOld,
      fun y hy => ?_⟩
  rcases List.mem_cons.mp hy with rfl | hy
  · exact hx
  · exact hp.historyOld y hy

lemma Sound.recordWatermark (hp : Sound p) (k : ℕ) : Sound (p.step (.recordWatermark k)) := by
  rw [Projection.step]
  split
  · rename_i position previous hreport
    have hcaller := hp.callers k
    refine (hp.record (hp.old_confirmedEventId hreport)).set k ⟨hcaller.todo, ?_, ?_, ?_, ?_⟩
    · exact fun _ hid => by cases hid
    · exact fun _ hd => by cases hd
    · exact fun _ _ h => by rcases h with h | h <;> cases h
    · exact fun _ _ h => by rcases h with h | h <;> cases h
  · rename_i previous hreport
    refine Sound.set (hp.record ?_) k (callerSound_empty _)
    rcases (hp.callers k).previous ⟨⊥, 0⟩ previous (.inr hreport) with hmem | rfl
    · exact hp.historyOld previous hmem
    · exact p.old_bot
  · exact hp

lemma Sound.step (hp : Sound p) (i : ProjectionStep ι φ) : Sound (p.step i) := by
  cases i with
  | publish id fields => exact hp.publish id fields
  | claimPending k consumer now minIdle count => exact hp.claimPending k consumer now minIdle count
  | readEvents k consumer now count => exact hp.readEvents k consumer now count
  | settle k => exact hp.settle k
  | retry k =>
    have hcaller := hp.callers k
    exact hp.set k ⟨fun id hid => hcaller.todo id (List.mem_of_mem_tail hid), hcaller.lastAcked,
      hcaller.delivered, hcaller.position, hcaller.previous⟩
  | xinfoGroups k =>
    rw [Projection.step]
    split
    · refine hp.report k (fun d hd => ?_) (fun _ _ h => ?_) (fun _ _ h => ?_)
      · cases hd
        exact le_refl _
      · rcases h with h | h <;> cases h
      · rcases h with h | h <;> cases h
    · exact hp
  | xpending k =>
    rw [Projection.step]
    split
    · rename_i d hreport
      have hle := (hp.callers k).delivered d hreport
      refine hp.report k (fun d hd => ?_) (fun position previous h => ?_) (fun _ _ h => ?_)
      · cases hd
      · rcases h with h | h <;> cases h
        refine ⟨hle, fun hzero m hm hmd => ?_⟩
        have hconfirmed := (hp.confirmed_iff (le_refl _)).mpr fun q hq => by
          rw [List.eq_nil_of_length_eq_zero hzero] at hq
          exact absurd hq List.not_mem_nil
        exact hconfirmed m hm (hmd.trans hle)
      · rcases h with h | h <;> cases h
    · exact hp
  | getWatermark k =>
    rw [Projection.step]
    split
    · rename_i position hreport
      have hposition := (hp.callers k).position position ⊥ (.inl hreport)
      refine hp.report k (fun d hd => ?_) (fun position previous h => ?_) (fun _ previous h => ?_)
      · cases hd
      · rcases h with h | h <;> cases h
        exact hposition
      · rcases h with h | h <;> cases h
        exact p.recorded_mem
    · exact hp
  | recordWatermark k => exact hp.recordWatermark k
  | fail k =>
    refine hp.set k ⟨?_, ?_, ?_, ?_, fun _ previous h => ?_⟩
    · exact fun _ hid => absurd hid List.not_mem_nil
    · exact fun _ hid => by cases hid
    · exact fun _ hd => by cases hd
    · exact fun _ _ h => by rcases h with h | h <;> cases h
    · rcases h with h | h <;> cases h
      exact p.recorded_mem
  | abandon k => exact hp.set k (callerSound_empty p)

lemma Sound.start : Sound (Projection.start : Projection ι φ) where
  settled := fun _ hm => absurd hm List.not_mem_nil
  pendingDelivered := fun _ hq => absurd hq List.not_mem_nil
  ackedDelivered := fun _ hid => absurd hid List.not_mem_nil
  frontierOld := old_bot _
  historyOld := fun _ hx => absurd hx List.not_mem_nil
  callers := fun _ => callerSound_empty _

/-! ### The steps that keep the promise -/

lemma Sound.old_recorded (hp : Sound p) : p.Old p.recorded := by
  rcases p.recorded_mem with hmem | hbot
  · exact hp.historyOld _ hmem
  · rw [hbot]
    exact p.old_bot

lemma honest_set {k : ℕ} : (p.set k c).Honest ↔ p.Honest := Iff.rfl

lemma Honest.extend (hhonest : Honest p) (hp : Sound p) (h : Extends p p')
    (hhistory : p'.history = p.history) : Honest p' := by
  have hrecorded : p'.recorded = p.recorded := by rw [recorded, hhistory, recorded]
  refine ⟨?_, ?_⟩
  · rw [hrecorded]
    exact h.confirmed hp.old_recorded hhonest.1
  · rw [hhistory]
    exact hhonest.2

lemma Honest.le_recorded (hhonest : Honest p) : ∀ y ∈ p.history, y ≤ p.recorded := by
  obtain ⟨-, hsorted⟩ := hhonest
  intro y hy
  rw [recorded]
  cases hhistory : p.history with
  | nil => simp [hhistory] at hy
  | cons x xs =>
    rw [hhistory] at hy hsorted
    rcases List.mem_cons.mp hy with rfl | hy
    · exact le_refl _
    · exact List.rel_of_pairwise_cons hsorted hy

lemma Confirmed.mono {y : WithBot ι} (hx : p.Confirmed x) (hle : y ≤ x) : p.Confirmed y :=
  fun m hm hmy => hx m hm (hmy.trans hle)

lemma Honest.record_iff (hhonest : Honest p) :
    Honest { p with history := x :: p.history } ↔ p.recorded ≤ x ∧ p.Confirmed x := by
  have hconfirmed : Confirmed { p with history := x :: p.history } x ↔ p.Confirmed x := Iff.rfl
  rw [Honest, List.pairwise_cons]
  constructor
  · rintro ⟨hx, hle, -⟩
    refine ⟨?_, hconfirmed.mp hx⟩
    rcases p.recorded_mem with hmem | hbot
    · exact hle _ hmem
    · rw [hbot]
      exact bot_le
  · rintro ⟨hle, hx⟩
    exact ⟨hconfirmed.mpr hx, fun y hy => (hhonest.le_recorded y hy).trans hle, hhonest.2⟩

lemma Honest.confirmed_previous (hhonest : Honest p) (hp : Sound p) {k : ℕ}
    (position : ConsumerPosition ι) {previous : WithBot ι}
    (hreport : (p.callers k).report = .recording position previous ∨
      (p.callers k).report = .failing previous) : p.Confirmed previous := by
  rcases (hp.callers k).previous position previous hreport with hmem | rfl
  · exact hhonest.1.mono (hhonest.le_recorded previous hmem)
  · exact hhonest.1.mono bot_le

lemma Honest.recordWatermark_iff (hhonest : Honest p) (hp : Sound p) (k : ℕ) :
    (p.step (.recordWatermark k)).Honest ↔ p.Timely (.recordWatermark k) := by
  rw [Projection.step, Timely]
  split
  · rename_i position previous hreport
    refine hhonest.record_iff.trans ?_
    cases hacked : (p.callers k).lastAckedId with
    | some id =>
      have hdelivered := ((hp.callers k).lastAcked id hacked).1
      simp only [confirmedEventId, hp.confirmed_iff hdelivered, WithBot.coe_lt_coe]
    | none =>
      rw [confirmedEventId]
      refine and_iff_left ?_
      split_ifs with hzero
      · exact ((hp.callers k).position position previous (.inr hreport)).2 hzero
      · exact hhonest.confirmed_previous hp position (.inl hreport)
  · rename_i previous hreport
    refine hhonest.record_iff.trans (and_iff_left ?_)
    exact hhonest.confirmed_previous hp ⟨⊥, 0⟩ (.inr hreport)
  · exact iff_of_true hhonest trivial

lemma Honest.step_iff (hhonest : Honest p) (hp : Sound p) (i : ProjectionStep ι φ) :
    (p.step i).Honest ↔ p.Timely i := by
  cases i with
  | recordWatermark k => exact hhonest.recordWatermark_iff hp k
  | publish id fields =>
    refine iff_of_true ?_ trivial
    rw [Projection.step]
    split_ifs with hfresh
    · exact hhonest.extend hp (.xadd _ hfresh) rfl
    · exact hhonest
  | claimPending k consumer now minIdle count =>
    have hclaimed := hhonest.extend hp (.xautoclaim p consumer now minIdle count) rfl
    exact iff_of_true (honest_set.mpr hclaimed) trivial
  | readEvents k consumer now count =>
    have hread := hhonest.extend hp (.xreadgroup p consumer now count) rfl
    exact iff_of_true (honest_set.mpr hread) trivial
  | settle k =>
    refine iff_of_true ?_ trivial
    rw [Projection.step]
    split
    · exact hhonest
    · rename_i id rest _
      exact honest_set.mpr (hhonest.extend hp (.xack p id) rfl)
  | retry k => exact iff_of_true hhonest trivial
  | xinfoGroups k =>
    refine iff_of_true ?_ trivial
    rw [Projection.step]
    split <;> exact hhonest
  | xpending k =>
    refine iff_of_true ?_ trivial
    rw [Projection.step]
    split <;> exact hhonest
  | getWatermark k =>
    refine iff_of_true ?_ trivial
    rw [Projection.step]
    split <;> exact hhonest
  | fail k => exact iff_of_true hhonest trivial
  | abandon k => exact iff_of_true hhonest trivial

lemma honest_start : Honest (start : Projection ι φ) :=
  ⟨fun _ hm => absurd hm List.not_mem_nil, List.Pairwise.nil⟩

end Projection

/-- Whatever is published, and however consumers and observers interleave: the id on record is
confirmed and never goes backwards in exactly the runs in which nothing recorded meanwhile is ahead
of what a caller records, and nothing up to an acknowledged entry is pending when the entry is
reported. -/
theorem watermark_honest_iff (steps : List (ProjectionStep ι φ)) :
    Throughout Projection.step Projection.Honest Projection.start steps ↔
      Along Projection.step Projection.Timely Projection.start steps :=
  throughout_iff_along (fun _ i hp => hp.step i) (fun _ i hp hhonest => hhonest.step_iff hp i)
    Projection.Sound.start Projection.honest_start

/-- Two entries are read, the handling of the first is to be retried, the second is acknowledged:
the consumer reports the second while the first is pending. -/
theorem watermark_passes_pending :
    ¬ Projection.Honest ((([.publish 1 (), .publish 2 (), .readEvents 0 "worker" 0 2, .retry 0,
      .settle 0, .xinfoGroups 0, .xpending 0, .getWatermark 0, .recordWatermark 0] :
      List (ProjectionStep ℕ Unit)).foldl Projection.step Projection.start)) := by
  rintro ⟨hconfirmed, -⟩
  have hacked := hconfirmed (1, ()) (by decide) (by decide)
  exact absurd hacked (by decide)

end AgenticDynamics.Control
