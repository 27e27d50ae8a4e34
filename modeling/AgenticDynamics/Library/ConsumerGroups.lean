import Mathlib.Tactic
import Mathlib.Data.List.Pairwise

/-!
# Consumer groups of a message stream

A stream keeps messages in the order of their ids, and a group of consumers reads it: what was
handed to a consumer stays in the group's pending list until somebody acknowledges it, and a
pending message that was left alone for long enough can be claimed by another consumer. Ids are
of any linear order and the fields of a message are of any type.
-/

namespace ConsumerGroups

variable {ι φ : Type}

/-! ### Pending messages -/

/-- A message that was delivered and is not acknowledged. -/
structure Pending (ι : Type) where
  messageId : ι
  consumer : String
  deliveredAt : ℕ
  timesDelivered : ℕ
deriving DecidableEq

/-- A message as it is pending after its first delivery. -/
def firstDelivery (consumer : String) (now : ℕ) (m : ι × φ) : Pending ι := ⟨m.1, consumer, now, 1⟩

/-- A pending message in the hands of the consumer that claimed it. -/
def Pending.claimedBy (consumer : String) (now : ℕ) (p : Pending ι) : Pending ι :=
  { p with consumer, deliveredAt := now, timesDelivered := p.timesDelivered + 1 }

@[simp] lemma Pending.claimedBy_id (consumer : String) (now : ℕ) (p : Pending ι) :
    (p.claimedBy consumer now).messageId = p.messageId := rfl

/-- What a claim leaves pending, what it answers and the ids whose messages are gone. -/
structure Claim (ι φ : Type) where
  pending : List (Pending ι)
  messages : List (ι × φ)
  deleted : List ι

section Scan

variable (fields? : ι → Option φ) (consumer : String) (now minIdle : ℕ)

/-- Look at up to `attempts` pending messages and answer with up to `count` of them. A message
that is gone from the stream leaves the pending list; it counts as answered. -/
def claimScan : ℕ → ℕ → List (Pending ι) → Claim ι φ
  | _, _, []         => ⟨[], [], []⟩
  | 0, _, ps         => ⟨ps, [], []⟩
  | _, 0, ps         => ⟨ps, [], []⟩
  | attempts + 1, count + 1, p :: ps =>
    match fields? p.messageId with
    | none =>
      let rest := claimScan attempts count ps
      { rest with deleted := p.messageId :: rest.deleted }
    | some fields =>
      if now - p.deliveredAt < minIdle then
        let rest := claimScan attempts (count + 1) ps
        { rest with pending := p :: rest.pending }
      else
        let rest := claimScan attempts count ps
        { rest with
          pending := p.claimedBy consumer now :: rest.pending
          messages := (p.messageId, fields) :: rest.messages }

variable {fields? : ι → Option φ} {consumer : String} {now minIdle : ℕ}

lemma claimScan_sublist (attempts count : ℕ) (ps : List (Pending ι)) :
    ((claimScan fields? consumer now minIdle attempts count ps).pending.map
      Pending.messageId).Sublist (ps.map Pending.messageId) := by
  fun_induction claimScan fields? consumer now minIdle attempts count ps with
  | case1 => exact List.Sublist.refl _
  | case2 => exact List.Sublist.refl _
  | case3 => exact List.Sublist.refl _
  | case4 attempts count p ps _ rest ih => exact ih.cons _
  | case5 attempts count p ps fields _ _ rest ih => exact ih.cons_cons _
  | case6 attempts count p ps fields _ _ rest ih => exact ih.cons_cons _

lemma claimScan_keeps {attempts count : ℕ} {ps : List (Pending ι)} {p : Pending ι} (hp : p ∈ ps)
    (hf : (fields? p.messageId).isSome) :
    ∃ q ∈ (claimScan fields? consumer now minIdle attempts count ps).pending,
      q.messageId = p.messageId ∧ p.timesDelivered ≤ q.timesDelivered := by
  fun_induction claimScan fields? consumer now minIdle attempts count ps with
  | case1 => simp at hp
  | case2 => exact ⟨p, hp, rfl, le_refl _⟩
  | case3 => exact ⟨p, hp, rfl, le_refl _⟩
  | case4 attempts count p' ps hnone rest ih =>
    rcases List.mem_cons.mp hp with rfl | hp
    · simp [hnone] at hf
    · exact ih hp
  | case5 attempts count p' ps fields _ _ rest ih =>
    rcases List.mem_cons.mp hp with rfl | hp
    · exact ⟨p, List.mem_cons_self, rfl, le_refl _⟩
    · obtain ⟨q, hq, hid⟩ := ih hp
      exact ⟨q, List.mem_cons_of_mem _ hq, hid⟩
  | case6 attempts count p' ps fields _ _ rest ih =>
    rcases List.mem_cons.mp hp with rfl | hp
    · exact ⟨_, List.mem_cons_self, rfl, Nat.le_succ _⟩
    · obtain ⟨q, hq, hid⟩ := ih hp
      exact ⟨q, List.mem_cons_of_mem _ hq, hid⟩

lemma claimScan_pending {attempts count : ℕ} {ps : List (Pending ι)} {q : Pending ι}
    (hq : q ∈ (claimScan fields? consumer now minIdle attempts count ps).pending) :
    ∃ p ∈ ps, q.messageId = p.messageId := by
  have hid := (claimScan_sublist attempts count ps).subset (List.mem_map_of_mem hq)
  obtain ⟨p, hp, hpid⟩ := List.mem_map.mp hid
  exact ⟨p, hp, hpid.symm⟩

lemma claimScan_messages {attempts count : ℕ} {ps : List (Pending ι)} {m : ι × φ}
    (hm : m ∈ (claimScan fields? consumer now minIdle attempts count ps).messages) :
    fields? m.1 = some m.2 ∧ ∃ p ∈ ps, p.messageId = m.1 := by
  fun_induction claimScan fields? consumer now minIdle attempts count ps with
  | case1 => simp at hm
  | case2 => simp at hm
  | case3 => simp at hm
  | case4 attempts count p ps _ rest ih =>
    obtain ⟨hf, q, hq, hid⟩ := ih hm
    exact ⟨hf, q, List.mem_cons_of_mem _ hq, hid⟩
  | case5 attempts count p ps fields _ _ rest ih =>
    obtain ⟨hf, q, hq, hid⟩ := ih hm
    exact ⟨hf, q, List.mem_cons_of_mem _ hq, hid⟩
  | case6 attempts count p ps fields hfields _ rest ih =>
    rcases List.mem_cons.mp hm with rfl | hm
    · exact ⟨hfields, p, List.mem_cons_self, rfl⟩
    · obtain ⟨hf, q, hq, hid⟩ := ih hm
      exact ⟨hf, q, List.mem_cons_of_mem _ hq, hid⟩

lemma claimScan_idle {attempts count : ℕ} {ps : List (Pending ι)}
    (hidle : ∀ p ∈ ps, minIdle ≤ now - p.deliveredAt) (hle : count ≤ attempts) :
    claimScan fields? consumer now minIdle attempts count ps =
      { pending := ((ps.take count).filter fun p => (fields? p.messageId).isSome).map
          (Pending.claimedBy consumer now) ++ ps.drop count
        messages := (ps.take count).filterMap fun p =>
          (fields? p.messageId).map (p.messageId, ·)
        deleted := ((ps.take count).filter fun p => (fields? p.messageId).isNone).map
          Pending.messageId } := by
  fun_induction claimScan fields? consumer now minIdle attempts count ps with
  | case1 => simp
  | case2 count ps hne =>
    rw [Nat.le_zero.mp hle]
    simp
  | case3 => simp
  | case4 attempts count p ps hnone rest ih =>
    have hrest := ih (fun q hq => hidle q (List.mem_cons_of_mem _ hq)) (by omega)
    simp [rest, hrest, hnone]
  | case5 attempts count p ps fields _ hlt rest ih =>
    exact absurd hlt (not_lt.mpr (hidle p List.mem_cons_self))
  | case6 attempts count p ps fields hfields _ rest ih =>
    have hrest := ih (fun q hq => hidle q (List.mem_cons_of_mem _ hq)) (by omega)
    simp [rest, hrest, hfields]

end Scan

/-! ### The state of a group -/

variable [LinearOrder ι]

/-- A stream with one group that reads it. -/
structure Group (ι φ : Type) [LinearOrder ι] where
  messages : List (ι × φ)
  lastDelivered : Option ι
  pending : List (Pending ι)
  messages_sorted : (messages.map Prod.fst).Pairwise (· < ·)
  pending_sorted : (pending.map Pending.messageId).Pairwise (· < ·)
  pending_delivered : ∀ p ∈ pending, ∃ l ∈ lastDelivered, p.messageId ≤ l

namespace Group

variable (g : Group ι φ)

/-- The fields of a message, unless it was deleted. -/
def fields? (id : ι) : Option φ := (g.messages.find? fun m => m.1 = id).map Prod.snd

/-- The messages that no consumer has been handed yet. -/
def undelivered : List (ι × φ) := g.messages.filter fun m => g.lastDelivered.all (· < m.1)

/-- The message is in the stream and the group is not done with it. -/
def Outstanding (m : ι × φ) : Prop :=
  m ∈ g.messages ∧ ((∃ p ∈ g.pending, p.messageId = m.1) ∨ m ∈ g.undelivered)

variable {g}

lemma mem_of_fields? {id : ι} {f : φ} (h : g.fields? id = some f) : (id, f) ∈ g.messages := by
  obtain ⟨m, hm, rfl⟩ := Option.map_eq_some_iff.mp h
  have hid : m.1 = id := by simpa using List.find?_some hm
  rw [← hid]
  exact List.mem_of_find?_eq_some hm

lemma messages_unique {m m' : ι × φ} (hm : m ∈ g.messages) (hm' : m' ∈ g.messages)
    (h : m.1 = m'.1) : m = m' := by
  have hnodup : (g.messages.map Prod.fst).Nodup := g.messages_sorted.imp fun hlt => hlt.ne
  exact List.inj_on_of_nodup_map hnodup hm hm' h

lemma fields?_of_mem {m : ι × φ} (h : m ∈ g.messages) : g.fields? m.1 = some m.2 := by
  cases hf : g.messages.find? fun m' => m'.1 = m.1 with
  | none => exact absurd (List.find?_eq_none.mp hf m h) (by simp)
  | some m' =>
    have hid : m'.1 = m.1 := by simpa using List.find?_some hf
    have hm' : m' = m := messages_unique (List.mem_of_find?_eq_some hf) h hid
    simp [fields?, hf, hm']

lemma mem_undelivered {m : ι × φ} :
    m ∈ g.undelivered ↔ m ∈ g.messages ∧ ∀ l ∈ g.lastDelivered, l < m.1 := by
  simp [undelivered, Option.all_eq_true]

lemma undelivered_sorted : (g.undelivered.map Prod.fst).Pairwise (· < ·) :=
  g.messages_sorted.sublist (List.filter_sublist.map Prod.fst)

lemma pending_lt_undelivered {p : Pending ι} (hp : p ∈ g.pending) {m : ι × φ}
    (hm : m ∈ g.undelivered) : p.messageId < m.1 := by
  obtain ⟨l, hl, hle⟩ := g.pending_delivered p hp
  exact lt_of_le_of_lt hle ((mem_undelivered.mp hm).2 l hl)

lemma pending_unique {p q : Pending ι} (hp : p ∈ g.pending) (hq : q ∈ g.pending)
    (h : p.messageId = q.messageId) : p = q := by
  have hnodup : (g.pending.map Pending.messageId).Nodup :=
    g.pending_sorted.imp fun hlt => hlt.ne
  exact List.inj_on_of_nodup_map hnodup hp hq h

end Group

/-! ### Publishing and acknowledging -/

namespace Group

variable (g : Group ι φ)

/-- Messages are appended to the stream; their ids are new. -/
def xadd (ms : List (ι × φ)) (hsorted : ((g.messages ++ ms).map Prod.fst).Pairwise (· < ·)) :
    Group ι φ :=
  { g with messages := g.messages ++ ms, messages_sorted := hsorted }

def xack (ids : List ι) : Group ι φ where
  messages := g.messages
  lastDelivered := g.lastDelivered
  pending := g.pending.filter fun p => p.messageId ∉ ids
  messages_sorted := g.messages_sorted
  pending_sorted := g.pending_sorted.sublist (List.filter_sublist.map _)
  pending_delivered := fun p hp => g.pending_delivered p (List.mem_of_mem_filter hp)

/-- The first `count` rows of the pending list. -/
def xpendingRange (count : ℕ) : List (Pending ι) := g.pending.take count

@[simp] lemma xack_messages (ids : List ι) : (g.xack ids).messages = g.messages := rfl

@[simp] lemma xack_lastDelivered (ids : List ι) :
    (g.xack ids).lastDelivered = g.lastDelivered := rfl

@[simp] lemma xack_undelivered (ids : List ι) : (g.xack ids).undelivered = g.undelivered := rfl

@[simp] lemma mem_xack {ids : List ι} {p : Pending ι} :
    p ∈ (g.xack ids).pending ↔ p ∈ g.pending ∧ p.messageId ∉ ids := by
  simp [xack]

@[simp] lemma xadd_pending (ms : List (ι × φ))
    (hsorted : ((g.messages ++ ms).map Prod.fst).Pairwise (· < ·)) :
    (g.xadd ms hsorted).pending = g.pending := rfl

variable {g}

lemma Outstanding.xadd {m : ι × φ} (h : g.Outstanding m) (ms : List (ι × φ))
    (hsorted : ((g.messages ++ ms).map Prod.fst).Pairwise (· < ·)) :
    (g.xadd ms hsorted).Outstanding m := by
  refine ⟨List.mem_append_left _ h.1, h.2.imp id fun hm => ?_⟩
  exact mem_undelivered.mpr ⟨List.mem_append_left _ h.1, (mem_undelivered.mp hm).2⟩

end Group

/-! ### Reading new messages -/

namespace Group

variable (g : Group ι φ) (consumer : String) (now count : ℕ)

/-- The id of the last message delivered once the first `count` undelivered ones are. -/
def lastOf : Option ι := ((g.undelivered.take count).getLast?.map Prod.fst).or g.lastDelivered

lemma take_undelivered_sorted : ((g.undelivered.take count).map Prod.fst).Pairwise (· < ·) :=
  g.undelivered_sorted.sublist ((List.take_sublist _ _).map _)

lemma le_lastOf {m : ι × φ} (hm : m ∈ g.undelivered.take count) :
    ∃ l ∈ g.lastOf count, m.1 ≤ l := by
  have hne : g.undelivered.take count ≠ [] := List.ne_nil_of_mem hm
  refine ⟨((g.undelivered.take count).getLast hne).1, by
    simp [lastOf, List.getLast?_eq_getLast_of_ne_nil hne], ?_⟩
  have hsorted := g.take_undelivered_sorted count
  rw [← List.dropLast_append_getLast hne, List.map_append] at hsorted
  rw [← List.dropLast_append_getLast hne] at hm
  rcases List.mem_append.mp hm with hm | hm
  · exact ((List.pairwise_append.mp hsorted).2.2 _ (List.mem_map_of_mem hm) _ (by simp)).le
  · rw [List.mem_singleton.mp hm]

lemma lastDelivered_le_lastOf {l : ι} (hl : l ∈ g.lastDelivered) :
    ∃ l' ∈ g.lastOf count, l ≤ l' := by
  cases hlast : (g.undelivered.take count).getLast? with
  | none => exact ⟨l, by simpa [lastOf, hlast] using hl, le_refl l⟩
  | some m =>
    have hm := List.mem_of_mem_take (List.mem_of_getLast? hlast)
    exact ⟨m.1, by simp [lastOf, hlast], ((mem_undelivered.mp hm).2 l hl).le⟩

/-- The first `count` undelivered messages are handed to the consumer. -/
def xreadgroup : List (ι × φ) × Group ι φ where
  fst := g.undelivered.take count
  snd :=
    { messages := g.messages
      lastDelivered := g.lastOf count
      pending := g.pending ++ (g.undelivered.take count).map (firstDelivery consumer now)
      messages_sorted := g.messages_sorted
      pending_sorted := by
        rw [List.map_append, List.map_map]
        refine List.pairwise_append.mpr ⟨g.pending_sorted, g.take_undelivered_sorted count, ?_⟩
        intro a ha b hb
        obtain ⟨p, hp, rfl⟩ := List.mem_map.mp ha
        obtain ⟨m, hm, rfl⟩ := List.mem_map.mp hb
        exact pending_lt_undelivered hp (List.mem_of_mem_take hm)
      pending_delivered := by
        intro p hp
        rcases List.mem_append.mp hp with hp | hp
        · obtain ⟨l, hl, hle⟩ := g.pending_delivered p hp
          obtain ⟨l', hl', hle'⟩ := g.lastDelivered_le_lastOf count hl
          exact ⟨l', hl', hle.trans hle'⟩
        · obtain ⟨m, hm, rfl⟩ := List.mem_map.mp hp
          exact g.le_lastOf count hm }

@[simp] lemma xreadgroup_batch :
    (g.xreadgroup consumer now count).1 = g.undelivered.take count := rfl

@[simp] lemma xreadgroup_messages :
    (g.xreadgroup consumer now count).2.messages = g.messages := rfl

lemma xreadgroup_undelivered :
    (g.xreadgroup consumer now count).2.undelivered = g.undelivered.drop count := by
  have hstep : (g.xreadgroup consumer now count).2.undelivered =
      g.undelivered.filter fun m => (g.lastOf count).all (· < m.1) := by
    rw [undelivered, undelivered, List.filter_filter]
    refine List.filter_congr fun m _ => ?_
    simp only [xreadgroup]
    rw [Bool.eq_iff_iff]
    simp only [Option.all_eq_true, Bool.and_eq_true, decide_eq_true_eq]
    refine ⟨fun h => ⟨h, fun l hl => ?_⟩, fun h => h.1⟩
    obtain ⟨l', hl', hle⟩ := g.lastDelivered_le_lastOf count hl
    exact lt_of_le_of_lt hle (h l' hl')
  have hsorted := g.undelivered_sorted
  rw [← List.take_append_drop count g.undelivered, List.map_append] at hsorted
  have hlt := (List.pairwise_append.mp hsorted).2.2
  have htake : (g.undelivered.take count).filter (fun m => (g.lastOf count).all (· < m.1)) = [] := by
    refine List.filter_eq_nil_iff.mpr fun m hm => ?_
    obtain ⟨l, hl, hle⟩ := g.le_lastOf count hm
    simp only [Option.all_eq_true, decide_eq_true_eq]
    exact fun h => absurd (h l hl) (not_lt.mpr hle)
  have hdrop : (g.undelivered.drop count).filter (fun m => (g.lastOf count).all (· < m.1)) =
      g.undelivered.drop count := by
    refine List.filter_eq_self.mpr fun m hm => ?_
    simp only [Option.all_eq_true, decide_eq_true_eq]
    intro l hl
    cases hlast : (g.undelivered.take count).getLast? with
    | none =>
      have hl' : l ∈ g.lastDelivered := by simpa [lastOf, hlast] using hl
      exact (mem_undelivered.mp (List.mem_of_mem_drop hm)).2 l hl'
    | some m' =>
      have hl' : m'.1 = l := by simpa [lastOf, hlast] using hl
      rw [← hl']
      exact hlt _ (List.mem_map_of_mem (List.mem_of_getLast? hlast)) _ (List.mem_map_of_mem hm)
  calc (g.xreadgroup consumer now count).2.undelivered
      = (g.undelivered.take count ++ g.undelivered.drop count).filter
          (fun m => (g.lastOf count).all (· < m.1)) := by rw [hstep, List.take_append_drop]
    _ = g.undelivered.drop count := by rw [List.filter_append, htake, hdrop, List.nil_append]

variable {g}

lemma Outstanding.xreadgroup {m : ι × φ} (h : g.Outstanding m) :
    (g.xreadgroup consumer now count).2.Outstanding m := by
  refine ⟨h.1, ?_⟩
  rw [xreadgroup_undelivered]
  rcases h.2 with ⟨p, hp, hid⟩ | hm
  · exact .inl ⟨p, List.mem_append_left _ hp, hid⟩
  · rw [← List.take_append_drop count g.undelivered] at hm
    rcases List.mem_append.mp hm with hm | hm
    · exact .inl ⟨_, List.mem_append_right _ (List.mem_map_of_mem hm), rfl⟩
    · exact .inr hm

lemma outstanding_of_xreadgroup {m : ι × φ}
    (h : (g.xreadgroup consumer now count).2.Outstanding m) : g.Outstanding m := by
  refine ⟨h.1, ?_⟩
  rcases h.2 with ⟨q, hq, hid⟩ | hu
  · rcases List.mem_append.mp hq with hq | hq
    · exact .inl ⟨q, hq, hid⟩
    · obtain ⟨m', hm', rfl⟩ := List.mem_map.mp hq
      have hu := List.mem_of_mem_take hm'
      exact .inr (messages_unique (mem_undelivered.mp hu).1 h.1 hid ▸ hu)
  · rw [xreadgroup_undelivered] at hu
    exact .inr (List.mem_of_mem_drop hu)

end Group

/-! ### Claiming what was left alone -/

namespace Group

variable (g : Group ι φ) (consumer : String) (now minIdle count : ℕ)

/-- The scan of a claim, which looks at ten pending messages for each it may answer with. -/
def claim : Claim ι φ :=
  claimScan g.fields? consumer now minIdle (count * 10) count g.pending

/-- Pending messages that were left alone for `minIdle` are handed to the consumer. -/
def xautoclaim : List (ι × φ) × List ι × Group ι φ where
  fst := (g.claim consumer now minIdle count).messages
  snd :=
    ((g.claim consumer now minIdle count).deleted,
      { messages := g.messages
        lastDelivered := g.lastDelivered
        pending := (g.claim consumer now minIdle count).pending
        messages_sorted := g.messages_sorted
        pending_sorted := g.pending_sorted.sublist (claimScan_sublist _ _ _)
        pending_delivered := by
          intro q hq
          obtain ⟨p, hp, hid⟩ := claimScan_pending hq
          rw [hid]
          exact g.pending_delivered p hp })

@[simp] lemma xautoclaim_messages :
    (g.xautoclaim consumer now minIdle count).2.2.messages = g.messages := rfl

@[simp] lemma xautoclaim_undelivered :
    (g.xautoclaim consumer now minIdle count).2.2.undelivered = g.undelivered := rfl

variable {g}

lemma Outstanding.xautoclaim {m : ι × φ} (h : g.Outstanding m) :
    (g.xautoclaim consumer now minIdle count).2.2.Outstanding m := by
  refine ⟨h.1, h.2.imp (fun ⟨p, hp, hid⟩ => ?_) id⟩
  have hsome : (g.fields? p.messageId).isSome := by simp [hid, fields?_of_mem h.1]
  obtain ⟨q, hq, hqid, -⟩ := claimScan_keeps hp hsome
  exact ⟨q, hq, hqid.trans hid⟩

lemma outstanding_of_claimed {m : ι × φ}
    (hm : m ∈ (g.xautoclaim consumer now minIdle count).1) : g.Outstanding m := by
  obtain ⟨hf, hp⟩ := claimScan_messages hm
  exact ⟨mem_of_fields? hf, .inl hp⟩

lemma outstanding_of_xautoclaim {m : ι × φ}
    (h : (g.xautoclaim consumer now minIdle count).2.2.Outstanding m) : g.Outstanding m := by
  refine ⟨h.1, h.2.imp (fun ⟨q, hq, hid⟩ => ?_) id⟩
  obtain ⟨p, hp, hpid⟩ := claimScan_pending hq
  exact ⟨p, hp, hpid.symm.trans hid⟩

lemma claim_idle (hidle : ∀ p ∈ g.pending, minIdle ≤ now - p.deliveredAt) :
    g.claim consumer now minIdle count =
      { pending := ((g.pending.take count).filter fun p => (g.fields? p.messageId).isSome).map
          (Pending.claimedBy consumer now) ++ g.pending.drop count
        messages := (g.pending.take count).filterMap fun p =>
          (g.fields? p.messageId).map (p.messageId, ·)
        deleted := ((g.pending.take count).filter fun p => (g.fields? p.messageId).isNone).map
          Pending.messageId } :=
  claimScan_idle hidle (by omega)

/-! ### Messages the group is done with -/

variable (g) in
/-- The message was delivered and is not pending. -/
def Settled (id : ι) : Prop :=
  (∃ l ∈ g.lastDelivered, id ≤ l) ∧ ∀ p ∈ g.pending, p.messageId ≠ id

lemma Settled.not_outstanding {m : ι × φ} (h : g.Settled m.1) : ¬ g.Outstanding m := by
  obtain ⟨l, hl, hle⟩ := h.1
  rintro ⟨-, ⟨p, hp, hid⟩ | hm⟩
  · exact h.2 p hp hid
  · exact not_lt.mpr hle ((mem_undelivered.mp hm).2 l hl)

lemma Settled.xreadgroup {id : ι} (h : g.Settled id) :
    (g.xreadgroup consumer now count).2.Settled id := by
  obtain ⟨l, hl, hle⟩ := h.1
  obtain ⟨l', hl', hle'⟩ := g.lastDelivered_le_lastOf count hl
  refine ⟨⟨l', hl', hle.trans hle'⟩, fun p hp => ?_⟩
  rcases List.mem_append.mp hp with hp | hp
  · exact h.2 p hp
  · obtain ⟨m, hm, rfl⟩ := List.mem_map.mp hp
    have hlt := (mem_undelivered.mp (List.mem_of_mem_take hm)).2 l hl
    exact (lt_of_le_of_lt hle hlt).ne'

lemma Settled.xautoclaim {id : ι} (h : g.Settled id) :
    (g.xautoclaim consumer now minIdle count).2.2.Settled id := by
  refine ⟨h.1, fun q hq => ?_⟩
  obtain ⟨p, hp, hid⟩ := claimScan_pending hq
  exact hid ▸ h.2 p hp

/-! ### The place of a pending message -/

variable (g) in
/-- How many pending messages are older than `id`. -/
def ahead (id : ι) : ℕ := g.pending.countP fun p => p.messageId < id

lemma mem_take_iff_countP_lt {α : Type} {key : α → ι} {l : List α}
    (hl : (l.map key).Pairwise (· < ·)) {a : α} (ha : a ∈ l) (n : ℕ) :
    a ∈ l.take n ↔ l.countP (fun b => key b < key a) < n := by
  induction l generalizing n with
  | nil => simp at ha
  | cons b l ih =>
    obtain ⟨hb, hl⟩ := List.pairwise_cons.mp hl
    rw [List.countP_cons]
    rcases List.mem_cons.mp ha with rfl | ha
    · have hzero : l.countP (fun b => key b < key a) = 0 := by
        refine List.countP_eq_zero.mpr fun c hc => ?_
        simpa using (hb _ (List.mem_map_of_mem hc)).le
      cases n with
      | zero => simp
      | succ n => simp [hzero]
    · have hlt : key b < key a := hb _ (List.mem_map_of_mem ha)
      have hne : a ≠ b := by
        rintro rfl
        exact lt_irrefl _ hlt
      cases n with
      | zero => simp
      | succ n => simp [hlt, hne, ih hl ha]

lemma mem_xpendingRange {p : Pending ι} (hp : p ∈ g.pending) (n : ℕ) :
    p ∈ g.xpendingRange n ↔ g.ahead p.messageId < n :=
  mem_take_iff_countP_lt g.pending_sorted hp n

end Group

end ConsumerGroups
