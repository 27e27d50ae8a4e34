import AgenticDynamics.Knowledge.StreamSafety

/-!
# Passes that reach a refused entry

Passes bring every refused entry that stands alone to any delivery count, however many entries
are before it, so the retry limit that never settles it is one it does reach. The run makes its
passes long after each other and lets every attempt fail: then a pass claims the oldest hundred
pending entries, and each of them is given up on after at most three claims.
-/

namespace AgenticDynamics.Knowledge

open Python ConsumerGroups

variable {ι β ρ : Type} [LinearOrder ι] {rt : Runtime}

/-! ### A pass in which every attempt fails -/

/-- A time at which all that is pending was left alone for long enough. -/
def longAfter (db : Streams ι) : ℕ :=
  leaseTimeoutMs + (db.group.pending.map Pending.deliveredAt).sum

def failingPass (β ρ : Type) (db : Streams ι) : PassEnv ι β ρ where
  consumer := ""
  claimedAt := longAfter db
  readAt := longAfter db
  worker _ :=
    { artifactReader := fun _ => .error ""
      hexdigest := fun _ => ""
      extractor := fun _ _ => .error ""
      handler := .plain fun _ => .error "" }
  clock _ := ""

lemma attempt_failingPass (db : Streams ι) (id : ι) (event : KnowledgeEvent) :
    attempt rt ((failingPass β ρ db).worker id) event = .error "" := rfl

lemma idle_longAfter {db : Streams ι} {p : Pending ι} (hp : p ∈ db.group.pending) :
    leaseTimeoutMs ≤ longAfter db - p.deliveredAt := by
  have hle : p.deliveredAt ≤ (db.group.pending.map Pending.deliveredAt).sum :=
    List.le_sum_of_mem (List.mem_map_of_mem hp)
  rw [longAfter]
  omega

/-- The pending entries that a failing pass claims. -/
def stale (db : Streams ι) : List (Pending ι) :=
  (db.group.pending.take claimBatch).filter fun p => (db.group.fields? p.messageId).isSome

lemma afterClaim_pending (db : Streams ι) :
    (afterClaim (failingPass β ρ db) db).group.pending =
      (stale db).map (Pending.claimedBy "" (longAfter db)) ++ db.group.pending.drop claimBatch :=
  congrArg Claim.pending (Group.claim_idle "" (longAfter db) leaseTimeoutMs claimBatch
    fun _ hp => idle_longAfter hp)

lemma claimedMessages_failingPass (db : Streams ι) :
    claimedMessages (failingPass β ρ db) db =
      (db.group.pending.take claimBatch).filterMap fun p =>
        (db.group.fields? p.messageId).map (p.messageId, ·) :=
  congrArg Claim.messages (Group.claim_idle "" (longAfter db) leaseTimeoutMs claimBatch
    fun _ hp => idle_longAfter hp)

lemma claimedMessages_ids (db : Streams ι) :
    (claimedMessages (failingPass β ρ db) db).map Prod.fst =
      (stale db).map Pending.messageId := by
  rw [claimedMessages_failingPass, stale]
  induction db.group.pending.take claimBatch with
  | nil => rfl
  | cons p ps ih =>
    cases hf : db.group.fields? p.messageId with
    | none => simpa [hf] using ih
    | some fields => simpa [hf] using ih

lemma mem_claimedMessages {db : Streams ι} {m : ι × Fields} (hm : m ∈ db.group.messages) :
    m ∈ claimedMessages (failingPass β ρ db) db ↔
      ∃ p ∈ db.group.pending.take claimBatch, p.messageId = m.1 := by
  rw [claimedMessages_failingPass, List.mem_filterMap]
  refine ⟨fun ⟨p, hp, hf⟩ => ?_, fun ⟨p, hp, hid⟩ => ?_⟩
  · obtain ⟨fields, -, rfl⟩ := Option.map_eq_some_iff.mp hf
    exact ⟨p, hp, rfl⟩
  · exact ⟨p, hp, by rw [hid, Group.fields?_of_mem hm]; rfl⟩

/-! ### An entry among the oldest hundred -/

section Oldest

variable {m : ι × Fields}

/-- The entry is pending and was delivered `k` times or more. -/
def Delivered (k : ℕ) (m : ι × Fields) (db : Streams ι) : Prop :=
  ∃ p ∈ db.group.pending, p.messageId = m.1 ∧ k ≤ p.timesDelivered

lemma delivered_succ {db : Streams ι} (hm : m ∈ db.group.messages) (hrefused : Refused rt m.2)
    {k : ℕ} (hk : Delivered k m db) (hahead : db.group.ahead m.1 < claimBatch) :
    let db' := (processBatch rt (failingPass β ρ db) db).2
    m ∈ db'.group.messages ∧ Delivered (k + 1) m db' ∧ db'.group.ahead m.1 < claimBatch := by
  obtain ⟨p, hp, hid, hle⟩ := hk
  have htake : p ∈ db.group.pending.take claimBatch :=
    (Group.mem_xpendingRange hp claimBatch).mpr (hid ▸ hahead)
  have hclaimed : m ∈ claimedMessages (failingPass β ρ db) db :=
    (mem_claimedMessages hm).mpr ⟨p, htake, hid⟩
  cases hparsed : parsed rt (claimedMessages (failingPass β ρ db) db) with
  | ok entries => exact absurd hrefused ((parsed_eq_ok rt hparsed).1 m hclaimed)
  | error exc =>
    rw [processBatch_claim_error hparsed]
    refine ⟨hm, ⟨p.claimedBy "" (longAfter db), ?_, hid, Nat.succ_le_succ hle⟩, ?_⟩
    · rw [afterClaim_pending]
      refine List.mem_append_left _ (List.mem_map_of_mem (List.mem_filter.mpr ⟨htake, ?_⟩))
      rw [hid, Group.fields?_of_mem hm]
      rfl
    · refine lt_of_le_of_lt ?_ hahead
      rw [Group.ahead, Group.ahead, afterClaim_pending, List.countP_append, List.countP_map]
      conv_rhs => rw [← List.take_append_drop claimBatch db.group.pending, List.countP_append]
      exact Nat.add_le_add_right List.filter_sublist.countP_le _

lemma delivered_of_ahead_lt {db : Streams ι} (hm : m ∈ db.group.messages)
    (hrefused : Refused rt m.2) (hpending : Delivered 0 m db)
    (hahead : db.group.ahead m.1 < claimBatch) (k : ℕ) :
    ∃ db', Run rt β ρ db db' ∧ m ∈ db'.group.messages ∧ Delivered k m db' ∧
      db'.group.ahead m.1 < claimBatch := by
  induction k with
  | zero => exact ⟨db, .refl, hm, hpending, hahead⟩
  | succ k ih =>
    obtain ⟨db', hrun, hm', hk, hahead'⟩ := ih
    exact ⟨_, hrun.tail (.pass (failingPass β ρ db')), delivered_succ hm' hrefused hk hahead'⟩

end Oldest

/-! ### Working off what is ahead -/

section Ahead

variable {m : ι × Fields} {db : Streams ι}

/-- No other outstanding entry is refused. -/
def OthersParsed (rt : Runtime) (m : ι × Fields) (db : Streams ι) : Prop :=
  ∀ d, db.group.Outstanding d → d ≠ m → ¬ Refused rt d.2

lemma outstanding_before_pass {env : PassEnv ι β ρ} {d : ι × Fields}
    (h : (processBatch rt env db).2.group.Outstanding d) : db.group.Outstanding d := by
  have hkept : ∀ d, (processBatch rt env db).2.group.Outstanding d → db.group.Outstanding d := by
    refine processBatch_preserves (P := fun db' => ∀ d, db'.group.Outstanding d →
      db.group.Outstanding d) ?_ ?_ ?_ fun _ h => h
    · exact fun db' ih d hd => ih d (Group.outstanding_of_xautoclaim _ _ _ _ hd)
    · exact fun db' ih d hd => ih d (Group.outstanding_of_xreadgroup _ _ _ hd)
    · exact fun db' db'' _ _ hhandled ih d hd => ih d (hhandled.outstanding_before hd)
  exact hkept d h

lemma OthersParsed.pass (h : OthersParsed rt m db) (env : PassEnv ι β ρ) :
    OthersParsed rt m (processBatch rt env db).2 :=
  fun d hd => h d (outstanding_before_pass hd)

lemma delivered_lt_of_handled (db₀ : Streams ι) (entries : List (StreamEntry ι))
    (acc : BatchOutcome ι × Streams ι)
    (hahead : ∀ e ∈ entries, acc.2.group.ahead e.entryId < claimBatch) :
    ∀ p ∈ (entries.foldl (handle rt (failingPass β ρ db₀)) acc).2.group.pending,
      p.messageId ∈ entries.map StreamEntry.entryId → p.timesDelivered < 3 := by
  induction entries generalizing acc with
  | nil => simp
  | cons entry entries ih =>
    intro p hp hid
    have hfirst := handle_handled rt (failingPass β ρ db₀) acc entry
    have hrest := foldl_handle_handled rt (failingPass β ρ db₀) entries
      (handle rt (failingPass β ρ db₀) acc entry)
    by_cases hlater : p.messageId ∈ entries.map StreamEntry.entryId
    · refine ih _ (fun e he => ?_) p hp hlater
      exact lt_of_le_of_lt (hfirst.ahead_le _) (hahead e (List.mem_cons_of_mem _ he))
    · have hnow : p.messageId = entry.entryId := by
        rcases List.mem_cons.mp hid with h | h
        · exact h
        · exact absurd h hlater
      have hp' := hrest.sublist.subset hp
      simp only [handle, processEntry, attempt_failingPass] at hp'
      split at hp'
      · exact absurd hnow (by simpa using ((acc.2.group.mem_xack).mp hp').2)
      · rename_i hcount
        have hp₀ : p ∈ acc.2.group.pending := hp'
        rw [← hnow, deliveryCount_eq hp₀,
          if_pos (hnow ▸ hahead entry List.mem_cons_self)] at hcount
        simpa [maxRetries] using hcount

/-- What a pending entry that is older than `m` still has to be claimed for. -/
def weight (m : ι × Fields) (p : Pending ι) : ℕ :=
  if p.messageId < m.1 then 3 - min 2 p.timesDelivered else 0

/-- The claims that the entries older than `m` still take. -/
def claimsAhead (m : ι × Fields) (db : Streams ι) : ℕ := (db.group.pending.map (weight m)).sum

lemma claimsAhead_le_of_sublist {db' : Streams ι}
    (h : db'.group.pending.Sublist db.group.pending) : claimsAhead m db' ≤ claimsAhead m db :=
  (h.map (weight m)).sum_le_sum fun _ _ => Nat.zero_le _

lemma weight_claimed_lt {claimed left : List (Pending ι)} {now : ℕ}
    (hleft : left.Sublist (claimed.map (Pending.claimedBy "" now)))
    (hcount : ∀ p ∈ left, p.timesDelivered < 3) {first : List (Pending ι)}
    (hclaimed : claimed.Sublist first) (hne : first ≠ [])
    (holder : ∀ p ∈ first, p.messageId < m.1) :
    (left.map (weight m)).sum < (first.map (weight m)).sum := by
  have hone : ∀ p ∈ left, weight m p ≤ 3 - p.timesDelivered := by
    intro p hp
    have hlt := hcount p hp
    rw [weight]
    split <;> omega
  have hclaim : ∀ p : Pending ι,
      3 - (p.claimedBy "" now).timesDelivered = 2 - p.timesDelivered := by
    intro p
    show 3 - (p.timesDelivered + 1) = 2 - p.timesDelivered
    omega
  have hlast : ∀ p ∈ first, 2 - p.timesDelivered < weight m p := by
    intro p hp
    rw [weight, if_pos (holder p hp)]
    omega
  calc (left.map (weight m)).sum
      ≤ (left.map fun p => 3 - p.timesDelivered).sum := List.sum_le_sum hone
    _ ≤ ((claimed.map (Pending.claimedBy "" now)).map fun p => 3 - p.timesDelivered).sum :=
        (hleft.map _).sum_le_sum fun _ _ => Nat.zero_le _
    _ = (claimed.map fun p => 2 - p.timesDelivered).sum := by
        rw [List.map_map]
        exact congrArg List.sum (List.map_congr_left fun p _ => hclaim p)
    _ ≤ (first.map fun p => 2 - p.timesDelivered).sum :=
        (hclaimed.map _).sum_le_sum fun _ _ => Nat.zero_le _
    _ < (first.map (weight m)).sum := List.sum_lt_sum_of_ne_nil hne _ _ hlast

lemma ahead_of_stale {p : Pending ι} (hp : p ∈ stale db) :
    (afterClaim (failingPass β ρ db) db).group.ahead p.messageId < claimBatch := by
  have hlength : ((stale db).map (Pending.claimedBy "" (longAfter db))).length ≤ claimBatch := by
    rw [List.length_map]
    exact List.filter_sublist.length_le.trans (List.length_take_le _ _)
  have hfirst : p.claimedBy "" (longAfter db) ∈
      (afterClaim (failingPass β ρ db) db).group.pending.take claimBatch := by
    rw [afterClaim_pending, List.take_append, List.take_of_length_le hlength]
    exact List.mem_append_left _ (List.mem_map_of_mem hp)
  exact (Group.mem_xpendingRange (List.mem_of_mem_take hfirst) claimBatch).mp hfirst

lemma claimsAhead_handled_lt {acc : BatchOutcome ι × Streams ι}
    (holder : ∀ q ∈ db.group.pending.take claimBatch, q.messageId < m.1)
    (hne : db.group.pending.take claimBatch ≠ [])
    (hsublist : acc.2.group.pending.Sublist
      (afterClaim (failingPass β ρ db) db).group.pending)
    (hcount : ∀ q ∈ acc.2.group.pending, q.messageId ∈ (stale db).map Pending.messageId →
      q.timesDelivered < 3) :
    claimsAhead m acc.2 < claimsAhead m db := by
  rw [afterClaim_pending] at hsublist
  obtain ⟨left, rest, hsplit, hleft, hrest⟩ := List.sublist_append_iff.mp hsublist
  have hleftCount : ∀ q ∈ left, q.timesDelivered < 3 := by
    intro q hq
    obtain ⟨p, hp, rfl⟩ := List.mem_map.mp (hleft.subset hq)
    have hid : p.messageId ∈ (stale db).map Pending.messageId := List.mem_map_of_mem hp
    exact hcount _ (hsplit ▸ List.mem_append_left _ hq) hid
  calc claimsAhead m acc.2
      = (left.map (weight m)).sum + (rest.map (weight m)).sum := by
        rw [claimsAhead, hsplit, List.map_append, List.sum_append]
    _ ≤ (left.map (weight m)).sum + ((db.group.pending.drop claimBatch).map (weight m)).sum :=
        Nat.add_le_add_left ((hrest.map _).sum_le_sum fun _ _ => Nat.zero_le _) _
    _ < ((db.group.pending.take claimBatch).map (weight m)).sum +
          ((db.group.pending.drop claimBatch).map (weight m)).sum :=
        Nat.add_lt_add_right
          (weight_claimed_lt hleft hleftCount List.filter_sublist hne holder) _
    _ = claimsAhead m db := by
        rw [← List.sum_append, ← List.map_append, List.take_append_drop, claimsAhead]

lemma claimsAhead_afterRead (env : PassEnv ι β ρ) (hpending : Delivered 0 m db) :
    claimsAhead m (afterRead env db) = claimsAhead m db := by
  obtain ⟨p, hp, hid, -⟩ := hpending
  have hzero : ∀ w ∈ ((newMessages db).map (firstDelivery env.consumer env.readAt)).map (weight m),
      w = 0 := by
    intro w hw
    obtain ⟨q, hq, rfl⟩ := List.mem_map.mp hw
    obtain ⟨d, hd, rfl⟩ := List.mem_map.mp hq
    have hlt := Group.pending_lt_undelivered hp (List.mem_of_mem_take hd)
    exact if_neg (not_lt.mpr (hid ▸ hlt.le))
  calc claimsAhead m (afterRead env db)
      = ((db.group.pending ++ (newMessages db).map
          (firstDelivery env.consumer env.readAt)).map (weight m)).sum := rfl
    _ = claimsAhead m db := by
        rw [List.map_append, List.sum_append, List.sum_eq_zero hzero, Nat.add_zero, claimsAhead]

lemma older_of_ahead (hpending : Delivered 0 m db) (hahead : claimBatch ≤ db.group.ahead m.1) :
    (∀ q ∈ db.group.pending.take claimBatch, q.messageId < m.1) ∧
      ∃ p ∈ db.group.pending.drop claimBatch, p.messageId = m.1 := by
  obtain ⟨p, hp, hid, -⟩ := hpending
  have hnot : p ∉ db.group.pending.take claimBatch := fun h =>
    absurd ((Group.mem_xpendingRange hp claimBatch).mp h) (not_lt.mpr (hid ▸ hahead))
  have hsorted := db.group.pending_sorted
  rw [← List.take_append_drop claimBatch db.group.pending, List.map_append] at hsorted
  rw [← List.take_append_drop claimBatch db.group.pending] at hp
  have hdrop := (List.mem_append.mp hp).resolve_left hnot
  refine ⟨fun q hq => ?_, p, hdrop, hid⟩
  rw [← hid]
  exact (List.pairwise_append.mp hsorted).2.2 _ (List.mem_map_of_mem hq) _
    (List.mem_map_of_mem hdrop)

lemma exists_entries (hothers : OthersParsed rt m db)
    (hnot : ∀ q ∈ db.group.pending.take claimBatch, q.messageId ≠ m.1) :
    ∃ entries, parsed rt (claimedMessages (failingPass β ρ db) db) = .ok entries ∧
      entries.map StreamEntry.entryId = (stale db).map Pending.messageId := by
  have hparses : ∀ d ∈ claimedMessages (failingPass β ρ db) db, ¬ Refused rt d.2 := by
    intro d hd
    have hout := outstanding_of_claimedMessages hd
    obtain ⟨q, hq, hqid⟩ := (mem_claimedMessages hout.1).mp hd
    exact hothers d hout fun h => hnot q hq (by rw [hqid, h])
  obtain ⟨entries, hentries⟩ := parsed_of_not_refused rt hparses
  exact ⟨entries, hentries, (parsed_eq_ok rt hentries).2.trans (claimedMessages_ids db)⟩

lemma claimsAhead_lt (hpending : Delivered 0 m db) (hahead : claimBatch ≤ db.group.ahead m.1)
    (hothers : OthersParsed rt m db) :
    claimsAhead m (processBatch rt (failingPass β ρ db) db).2 < claimsAhead m db := by
  obtain ⟨holder, p, hdrop, hid⟩ := older_of_ahead hpending hahead
  have hne : db.group.pending.take claimBatch ≠ [] := by
    intro h
    rcases List.take_eq_nil_iff.mp h with h | h
    · simp [claimBatch] at h
    · simp [h] at hdrop
  obtain ⟨entries, hentries, hids⟩ :=
    exists_entries (β := β) (ρ := ρ) hothers fun q hq => (holder q hq).ne
  have hmid : m.1 ∉ entries.map StreamEntry.entryId := by
    rw [hids]
    intro h
    obtain ⟨q, hq, hqid⟩ := List.mem_map.mp h
    exact (holder q (List.mem_of_mem_filter hq)).ne hqid
  have hhandled := foldl_handle_handled rt (failingPass β ρ db) entries
    ({}, afterClaim (failingPass β ρ db) db)
  have holdest : ∀ e ∈ entries,
      (afterClaim (failingPass β ρ db) db).group.ahead e.entryId < claimBatch := by
    intro e he
    obtain ⟨q, hq, hqid⟩ := List.mem_map.mp (hids ▸ List.mem_map_of_mem he)
    exact hqid ▸ ahead_of_stale hq
  have hcount : ∀ q ∈ (entries.foldl (handle rt (failingPass β ρ db))
        ({}, afterClaim (failingPass β ρ db) db)).2.group.pending,
      q.messageId ∈ entries.map StreamEntry.entryId → q.timesDelivered < 3 :=
    delivered_lt_of_handled db entries _ holdest
  rw [processBatch_claim_ok hentries rfl]
  generalize entries.foldl (handle rt (failingPass β ρ db))
    ({}, afterClaim (failingPass β ρ db) db) = acc at hhandled hcount ⊢
  have hacc : claimsAhead m acc.2 < claimsAhead m db :=
    claimsAhead_handled_lt holder hne hhandled.sublist fun q hq hqid => hcount q hq (hids ▸ hqid)
  have hstays : Delivered 0 m acc.2 := by
    refine ⟨p, hhandled.kept p ?_ (hid ▸ hmid), hid, Nat.zero_le _⟩
    rw [afterClaim_pending]
    exact List.mem_append_right _ hdrop
  have hread := claimsAhead_afterRead (failingPass β ρ db) hstays
  cases parsed rt (newMessages acc.2) with
  | error exc => exact hread ▸ hacc
  | ok entries' =>
    have hlast := foldl_handle_handled rt (failingPass β ρ db) entries'
      (acc.1, afterRead (failingPass β ρ db) acc.2)
    exact lt_of_le_of_lt (claimsAhead_le_of_sublist hlast.sublist) (hread ▸ hacc)

lemma Delivered.pass (hm : m ∈ db.group.messages) (hrefused : Refused rt m.2)
    (hpending : Delivered 0 m db) (env : PassEnv ι β ρ) :
    m ∈ (processBatch rt env db).2.group.messages ∧ Delivered 0 m (processBatch rt env db).2 := by
  refine processBatch_preserves (P := fun db => m ∈ db.group.messages ∧ Delivered 0 m db)
    ?_ ?_ ?_ ⟨hm, hpending⟩
  · rintro db ⟨hm, p, hp, hid, -⟩
    have hsome : (db.group.fields? p.messageId).isSome := by simp [hid, Group.fields?_of_mem hm]
    obtain ⟨q, hq, hqid, -⟩ := claimScan_keeps hp hsome
    exact ⟨hm, q, hq, hqid.trans hid, Nat.zero_le _⟩
  · rintro db ⟨hm, p, hp, hid, -⟩
    exact ⟨hm, p, List.mem_append_left _ hp, hid, Nat.zero_le _⟩
  · rintro db db' messages hmessages hhandled ⟨hm, p, hp, hid, -⟩
    have hnot := not_mem_ids_of_refused hm hrefused hmessages
    exact ⟨hhandled.messages ▸ hm, p, hhandled.kept p hp (hid ▸ hnot), hid, Nat.zero_le _⟩

lemma delivered_of_pending (hm : m ∈ db.group.messages) (hrefused : Refused rt m.2)
    (hpending : Delivered 0 m db) (hothers : OthersParsed rt m db) (k : ℕ) :
    ∃ db', Run rt β ρ db db' ∧ Delivered k m db' := by
  induction hn : claimsAhead m db using Nat.strong_induction_on generalizing db with
  | _ n ih =>
    by_cases hahead : db.group.ahead m.1 < claimBatch
    · obtain ⟨db', hrun, -, hk, -⟩ := delivered_of_ahead_lt hm hrefused hpending hahead k
      exact ⟨db', hrun, hk⟩
    · have hlt := claimsAhead_lt (β := β) (ρ := ρ) hpending (not_lt.mp hahead) hothers
      obtain ⟨hm', hpending'⟩ := hpending.pass hm hrefused (failingPass β ρ db)
      obtain ⟨db', hrun, hk⟩ := ih _ (hn ▸ hlt) hm' hpending' (hothers.pass _) rfl
      exact ⟨db', Relation.ReflTransGen.head (.pass _) hrun, hk⟩

lemma undelivered_pass (hm : m ∈ db.group.undelivered) (hrefused : Refused rt m.2)
    (hothers : OthersParsed rt m db) :
    let db' := (processBatch rt (failingPass β ρ db) db).2
    Delivered 0 m db' ∨ (m ∈ db'.group.undelivered ∧
      db'.group.undelivered.length < db.group.undelivered.length) := by
  have hnot : ∀ q ∈ db.group.pending.take claimBatch, q.messageId ≠ m.1 := fun q hq =>
    (Group.pending_lt_undelivered (List.mem_of_mem_take hq) hm).ne
  obtain ⟨entries, hentries, -⟩ := exists_entries (β := β) (ρ := ρ) hothers hnot
  have hhandled := foldl_handle_handled rt (failingPass β ρ db) entries
    ({}, afterClaim (failingPass β ρ db) db)
  rw [processBatch_claim_ok hentries rfl]
  generalize entries.foldl (handle rt (failingPass β ρ db))
    ({}, afterClaim (failingPass β ρ db) db) = acc at hhandled ⊢
  have hundelivered : acc.2.group.undelivered = db.group.undelivered := hhandled.undelivered
  by_cases hnew : m ∈ newMessages acc.2
  · cases hparsed : parsed rt (newMessages acc.2) with
    | ok entries' => exact absurd hrefused ((parsed_eq_ok rt hparsed).1 m hnew)
    | error exc =>
      exact .inl ⟨_, List.mem_append_right _ (List.mem_map_of_mem hnew), rfl, Nat.zero_le _⟩
  · have hdrop : m ∈ db.group.undelivered.drop claimBatch := by
      rw [newMessages, hundelivered] at hnew
      rw [← List.take_append_drop claimBatch db.group.undelivered] at hm
      exact (List.mem_append.mp hm).resolve_left hnew
    have hparses : ∀ d ∈ newMessages acc.2, ¬ Refused rt d.2 := by
      intro d hd
      have hout := hhandled.outstanding_before (outstanding_of_newMessages hd)
      exact hothers d (Group.outstanding_of_xautoclaim _ _ _ _ hout) fun h => hnew (h ▸ hd)
    obtain ⟨entries', hentries'⟩ := parsed_of_not_refused rt hparses
    have hlast := foldl_handle_handled rt (failingPass β ρ db) entries'
      (acc.1, afterRead (failingPass β ρ db) acc.2)
    have hrest : (afterRead (failingPass β ρ db) acc.2).group.undelivered =
        db.group.undelivered.drop claimBatch := by
      rw [afterRead, Group.xreadgroup_undelivered, hundelivered]
    rw [hentries']
    refine .inr ?_
    dsimp only
    rw [hlast.undelivered, hrest]
    refine ⟨hdrop, ?_⟩
    have hlength := List.length_pos_of_mem hdrop
    rw [List.length_drop] at hlength ⊢
    rw [claimBatch] at hlength ⊢
    omega

theorem refused_reaches (hm : db.group.Outstanding m) (hrefused : Refused rt m.2)
    (hothers : OthersParsed rt m db) (k : ℕ) : ∃ db', Run rt β ρ db db' ∧ Delivered k m db' := by
  rcases hm.2 with ⟨p, hp, hid⟩ | hu
  · exact delivered_of_pending hm.1 hrefused ⟨p, hp, hid, Nat.zero_le _⟩ hothers k
  · clear hm
    induction hn : db.group.undelivered.length using Nat.strong_induction_on generalizing db with
    | _ n ih =>
      have hmem := (Group.mem_undelivered.mp hu).1
      have hstuck : Stuck m db.deadLetters (processBatch rt (failingPass β ρ db) db).2 :=
        refused_never_settled ⟨hmem, .inr hu⟩ hrefused (.single (.pass (failingPass β ρ db)))
      have hothers' := hothers.pass (failingPass β ρ db)
      rcases undelivered_pass (β := β) (ρ := ρ) hu hrefused hothers with hpending | ⟨hu', hlt⟩
      · obtain ⟨db', hrun, hk⟩ := delivered_of_pending hstuck.1.1 hrefused hpending hothers' k
        exact ⟨db', Relation.ReflTransGen.head (.pass _) hrun, hk⟩
      · obtain ⟨db', hrun, hk⟩ := ih _ (hn ▸ hlt) hothers' hu' rfl
        exact ⟨db', Relation.ReflTransGen.head (.pass _) hrun, hk⟩

end Ahead

/-! ### No poison entry -/

/-- What is asked of a refused entry: some passes settle every other outstanding entry, and
wherever its delivery count has reached the retry limit, some passes acknowledge it and make a
dead letter of it. -/
def NoPoison (rt : Runtime) (β ρ : Type) (m : ι × Fields) (db : Streams ι) : Prop :=
  (∀ d, db.group.Outstanding d → d ≠ m →
    ∃ db', Run rt β ρ db db' ∧ ¬ db'.group.Outstanding d) ∧
  ∀ db', Run rt β ρ db db' →
    (∃ p ∈ db'.group.pending, p.messageId = m.1 ∧ maxRetries ≤ p.timesDelivered) →
    ∃ db'', Run rt β ρ db' db'' ∧ ¬ db''.group.Outstanding m ∧
      ∃ l ∈ db''.deadLetters, l.sourceEntryId = m.1

lemma not_noPoison {m : ι × Fields} {db : Streams ι} (hm : db.group.Outstanding m)
    (hrefused : Refused rt m.2) : ¬ NoPoison rt β ρ m db := by
  rintro ⟨hsettles, hlimit⟩
  have hothers : OthersParsed rt m db := by
    intro d hd hne hbad
    obtain ⟨db', hrun, hnot⟩ := hsettles d hd hne
    exact hnot (refused_never_settled hd hbad hrun).1
  obtain ⟨db', hrun, p, hp, hid, hle⟩ := refused_reaches (β := β) (ρ := ρ) hm hrefused hothers 3
  have hstuck := refused_never_settled hm hrefused hrun
  obtain ⟨db'', hrun', hnot, -⟩ := hlimit db' hrun ⟨p, hp, hid, by simpa [maxRetries] using hle⟩
  exact hnot (refused_never_settled hstuck.1 hrefused hrun').1

/-- Every refused entry is poison: whatever passes are made, it is never acknowledged and no dead
letter is made of it. -/
theorem refused_is_poison {m : ι × Fields} {db : Streams ι} (hm : db.group.Outstanding m)
    (hrefused : Refused rt m.2) :
    ¬ NoPoison rt β ρ m db ∧ ∀ db', Run rt β ρ db db' → Stuck m db.deadLetters db' :=
  ⟨not_noPoison hm hrefused, fun _ hrun => refused_never_settled hm hrefused hrun⟩

/-- A message of a contract that this consumer does not know. -/
def laterContract : ℕ × Fields := (1, { pointer with schemaVersion := "kb/v2" }.toDict)

lemma laterContract_sorted : ([laterContract].map Prod.fst).Pairwise (· < ·) :=
  List.pairwise_singleton _ _

lemma nothing_pending_sorted :
    (([] : List (Pending ℕ)).map Pending.messageId).Pairwise (· < ·) := List.Pairwise.nil

lemma nothing_pending_delivered :
    ∀ p ∈ ([] : List (Pending ℕ)), ∃ l ∈ (none : Option ℕ), p.messageId ≤ l :=
  fun _ hp => absurd hp List.not_mem_nil

def laterContractPublished : Streams ℕ where
  group :=
    { messages := [laterContract]
      lastDelivered := none
      pending := []
      messages_sorted := laterContract_sorted
      pending_sorted := nothing_pending_sorted
      pending_delivered := nothing_pending_delivered }

lemma laterContract_outstanding : laterContractPublished.group.Outstanding laterContract :=
  ⟨List.mem_singleton_self _, .inr (List.mem_singleton_self _)⟩

lemma laterContract_refused : Refused streamRuntime laterContract.2 :=
  ⟨"ValueError('unknown schema_version 'kb/v2'')", rfl⟩

theorem refused_is_poison_laterContract :
    ¬ NoPoison streamRuntime String KnowledgeEvent laterContract laterContractPublished ∧
      ∀ db', Run streamRuntime String KnowledgeEvent laterContractPublished db' →
        Stuck laterContract [] db' :=
  refused_is_poison laterContract_outstanding laterContract_refused

theorem laterContract_poisons :
    laterContractPublished.group.Outstanding laterContract ∧
      Refused streamRuntime laterContract.2 ∧
      ¬ NoPoison streamRuntime String KnowledgeEvent laterContract laterContractPublished :=
  ⟨laterContract_outstanding, laterContract_refused,
    not_noPoison laterContract_outstanding laterContract_refused⟩

end AgenticDynamics.Knowledge
