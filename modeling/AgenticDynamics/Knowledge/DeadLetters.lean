import AgenticDynamics.Knowledge.PoisonEntry

/-!
# Entries that are done with

An entry that is acknowledged is never handed out again. A dead letter is written only for an entry
that is pending, and the entry is acknowledged with it, so that no entry has two of them.
-/

namespace AgenticDynamics.Knowledge

open Python ConsumerGroups

variable {ι β ρ : Type} [LinearOrder ι] {rt : Runtime} {db db' : Streams ι}

/-! ### One entry -/

lemma Handled.settled {ids : List ι} {id : ι} (h : Handled ids db db')
    (hid : db.group.Settled id) : db'.group.Settled id :=
  ⟨h.lastDelivered ▸ hid.1, fun p hp => hid.2 p (h.sublist.subset hp)⟩

/-- No entry has two dead letters, and one that has one is done with. -/
structure Lettered (db : Streams ι) : Prop where
  once : (db.deadLetters.map DeadLetter.sourceEntryId).Nodup
  settled : ∀ l ∈ db.deadLetters, db.group.Settled l.sourceEntryId

lemma pending_of_delivered {id : ι} (h : 0 < deliveryCount id db) :
    ∃ p ∈ db.group.pending, p.messageId = id := by
  rw [deliveryCount] at h
  cases hfound : (db.group.xpendingRange claimBatch).find? fun p => p.messageId = id with
  | none =>
    rw [hfound] at h
    exact absurd h (lt_irrefl 0)
  | some p =>
    have hid : p.messageId = id := by simpa using List.find?_some hfound
    exact ⟨p, List.mem_of_mem_take (List.mem_of_find?_eq_some hfound), hid⟩

lemma Lettered.processEntry (h : Lettered db) (worker : Worker β ρ) (clock : String) (id : ι)
    (event : KnowledgeEvent) :
    Lettered (processEntry rt worker clock maxRetries id event db).2 := by
  have hhandled := processEntry_handled rt worker clock maxRetries id event db
  have hkept := fun l hl => hhandled.settled (h.settled l hl)
  rw [Knowledge.processEntry] at hkept ⊢
  cases hattempt : attempt rt worker event with
  | ok _ =>
    rw [hattempt] at hkept
    exact ⟨h.once, hkept⟩
  | error exc =>
    rw [hattempt] at hkept
    dsimp only at hkept ⊢
    split_ifs at hkept ⊢ with hlimit
    · -- the delivery count was found, so the entry is pending
      have hcount : 0 < deliveryCount id db := by
        rw [maxRetries] at hlimit
        omega
      obtain ⟨p, hp, rfl⟩ := pending_of_delivered hcount
      refine ⟨?_, fun l hl => ?_⟩
      · rw [acknowledge, deadLetter, List.map_append]
        refine List.nodup_append.mpr ⟨h.once, List.nodup_singleton _, ?_⟩
        rintro id hid _ hlast rfl
        obtain ⟨l, hl, rfl⟩ := List.mem_map.mp hid
        exact (h.settled l hl).2 p hp (List.mem_singleton.mp hlast).symm
      · rcases List.mem_append.mp hl with hl | hl
        · exact hkept l hl
        · rw [List.mem_singleton.mp hl]
          exact ⟨db.group.pending_delivered p hp, fun q hq hid => by
            simpa [hid] using (db.group.mem_xack.mp hq).2⟩
    · exact h

/-! ### Runs -/

lemma Lettered.pass (h : Lettered db) (env : PassEnv ι β ρ) :
    Lettered (processBatch rt env db).2 := by
  have hfold (entries : List (StreamEntry ι)) (acc : BatchOutcome ι × Streams ι)
      (hacc : Lettered acc.2) : Lettered (entries.foldl (handle rt env) acc).2 := by
    induction entries generalizing acc with
    | nil => exact hacc
    | cons entry entries ih => exact ih _ (hacc.processEntry _ _ entry.entryId entry.event)
  have hclaim : Lettered (afterClaim env db) :=
    ⟨h.once, fun l hl => (h.settled l hl).xautoclaim _ _ _ _⟩
  cases hparsed : parsed rt (claimedMessages env db) with
  | error exc =>
    rw [processBatch_claim_error hparsed]
    exact hclaim
  | ok entries =>
    rw [processBatch_claim_ok hparsed rfl]
    have hacc := hfold entries ({}, afterClaim env db) hclaim
    generalize entries.foldl (handle rt env) ({}, afterClaim env db) = acc at hacc ⊢
    have hread : Lettered (afterRead env acc.2) :=
      ⟨hacc.once, fun l hl => (hacc.settled l hl).xreadgroup _ _ _⟩
    split
    · exact hread
    · exact hfold _ _ hread

lemma settled_step {id : ι} (h : db.group.Settled id) (hstep : Step rt β ρ db db') :
    db'.group.Settled id := by
  cases hstep with
  | publish ms hsorted => exact h
  | pass env =>
    exact processBatch_preserves (P := fun db => db.group.Settled id)
      (fun _ h => h.xautoclaim _ _ _ _) (fun _ h => h.xreadgroup _ _ _)
      (fun _ _ _ _ hhandled h => hhandled.settled h) h

/-- The artifact of the one message of the stream is missing. -/
def lostArtifact : Streams ℕ where
  group :=
    { messages := [(1, pointer.toDict)]
      lastDelivered := none
      pending := []
      messages_sorted := List.pairwise_singleton _ _
      pending_sorted := nothing_pending_sorted
      pending_delivered := nothing_pending_delivered }

def attemptAt (now : ℕ) (db : Streams ℕ) : Streams ℕ :=
  (processBatch streamRuntime
    { consumer := "worker"
      claimedAt := now
      readAt := now
      worker := fun _ => missingArtifacts
      clock := fun _ => "" } db).2

end AgenticDynamics.Knowledge
