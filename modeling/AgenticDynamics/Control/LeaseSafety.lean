import AgenticDynamics.Control.LeaseIds

/-!
# Caps are never exceeded

The invariant of the lease registry under any interleaving. The histories say what must be there:
a granted lease that is neither released nor expired is in its scope hash and in the index, and
nothing is in either that was not granted. A client between its read and its transaction knows
that the hash can only have lost members since, as long as no write was counted.
-/

namespace AgenticDynamics.Control

open Python Optimistic

/-! ### What a value can lose -/

/-- Members may disappear from a hash, never appear. -/
def Keeps {α : Type} (a b : Dict α) : Prop := b ⊆ a

instance {α : Type} : Std.Refl (Keeps (α := α)) := ⟨fun _ _ h => h⟩

instance {α : Type} : IsTrans (Dict α) Keeps := ⟨fun _ _ _ h h' _ hx => h (h' hx)⟩

section Hdel

variable {α : Type}

lemma hdel_value (ids : List String) (c : Cell (Dict α)) :
    (hdel ids c).value = Dict.eraseAll ids c.value := by
  simp only [hdel]
  split
  · rfl
  · rename_i hnone
    refine (Dict.eraseAll_of_new ?_).symm
    intro kv hkv hmem
    apply hnone
    rw [List.any_eq_true]
    refine ⟨kv.1, hmem, ?_⟩
    rw [Option.isSome_iff_ne_none]
    intro hget
    exact Dict.get?_eq_none.mp hget kv hkv rfl

lemma hdel_eq (ids : List String) (c : Cell (Dict α)) :
    hdel ids c = c ∨ ∃ v, hdel ids c = c.write v := by
  simp only [hdel]
  split
  · exact .inr ⟨_, rfl⟩
  · exact .inl rfl

end Hdel

/-! ### Leases and instants -/

lemma not_expired_of_le {l : Lease} {t u : ℚ} (htu : t ≤ u)
    (h : l.isExpired (.finite u) = false) : l.isExpired (.finite t) = false := by
  rw [Bool.eq_false_iff] at h ⊢
  exact mt (Lease.expired_mono htu) h

lemma Reservation.lease?_eq {r : Reservation} {token : String} {now : Reading} {l : Lease}
    (hcheck : r.check = .ok ()) (httl : r.ttlSeconds ≤ keyTtlSeconds)
    (h : r.lease? token now.float = some l) :
    l.leaseId = leaseIdOf r.kind token ∧ l.amount = .finite r.amount.value ∧
      l.expiresAt = .finite (now.seconds + r.ttlSeconds) := by
  have hpos : 0 < r.ttlSeconds := by
    simp only [check] at hcheck
    split_ifs at hcheck with _ h0
    omega
  have hq : (r.ttlSeconds : ℚ) ≤ keyTtlSeconds := by exact_mod_cast httl
  have hq0 : (0 : ℚ) < r.ttlSeconds := by exact_mod_cast hpos
  have hrange : |(r.ttlSeconds : ℚ)| ≤ floatMax := by
    have hkey : (keyTtlSeconds : ℚ) ≤ floatMax := by decide +kernel
    rw [abs_of_pos hq0]
    exact hq.trans hkey
  have hfin : ¬ floatLimit ≤ |now.seconds + r.ttlSeconds| := by
    rw [abs_of_nonneg (by linarith [now.nonneg]), not_le]
    linarith [now.bounded]
  simp only [lease?, floatOfInt_eq hrange, bind, Option.bind] at h
  cases h
  simp [Reading.float, PyFloat.add, PyFloat.ofRat, hfin]

/-! ### The invariant -/

/-- An entry of a scope hash that a grant accounts for. -/
def FromGrant (granted : List Grant) (key : String) (entry : String × Stored) : Prop :=
  ∃ g ∈ granted, g.key = key ∧ g.lease.leaseId = entry.1 ∧ entry.2 = .lease g.lease

lemma FromGrant.mono {granted granted' : List Grant} (hsub : granted ⊆ granted') {key : String}
    {entry : String × Stored} (h : FromGrant granted key entry) :
    FromGrant granted' key entry := by
  obtain ⟨g, hg, hrest⟩ := h
  exact ⟨g, hsub hg, hrest⟩

structure StoreOk (s : Store) : Prop where
  entries : ∀ key, ∀ entry ∈ (s.scopes key).value, FromGrant s.granted key entry
  unreleased : ∀ key, ∀ entry ∈ (s.scopes key).value, entry.1 ∉ s.released
  listed : ∀ entry ∈ s.index.value, ∃ g ∈ s.granted, g.lease.leaseId = entry.1 ∧ g.key = entry.2
  unique : (s.granted.map fun g => g.lease.leaseId).Nodup
  amounts : ∀ g ∈ s.granted, ∃ q, 0 < q ∧ g.lease.amount = .finite q
  expiries : ∀ g ∈ s.granted, ∃ e, g.lease.expiresAt = .finite e ∧
    e ≤ s.clock.seconds + keyTtlSeconds ∧ e ≤ s.scopeDeadline g.key ∧ e ≤ s.indexDeadline
  present : ∀ g ∈ s.granted, s.Live g →
    (g.lease.leaseId, .lease g.lease) ∈ (s.scopes g.key).value ∧
      (g.lease.leaseId, g.key) ∈ s.index.value
  gone : ∀ i ∈ s.released, ∃ g ∈ s.granted, g.lease.leaseId = i
  tokens : ∀ g ∈ s.granted, ∃ kind, ∃ token ∈ s.drawn, g.lease.leaseId = leaseIdOf kind token

namespace StoreOk

variable {s : Store}

lemma initial (start : Reading) : StoreOk (Store.initial start) := by
  constructor <;> simp [Store.initial]

lemma eq_of_id (h : StoreOk s) {g g' : Grant} (hg : g ∈ s.granted) (hg' : g' ∈ s.granted)
    (hid : g.lease.leaseId = g'.lease.leaseId) : g = g' :=
  List.inj_on_of_nodup_map h.unique hg hg' hid

lemma of_entry (h : StoreOk s) {key i : String} {l : Lease}
    (hmem : (i, .lease l) ∈ (s.scopes key).value) : ⟨key, l⟩ ∈ s.granted ∧ l.leaseId = i := by
  obtain ⟨⟨k, l'⟩, hg, hkey, hid, hl⟩ := h.entries key _ hmem
  cases hl
  cases hkey
  exact ⟨hg, hid⟩

end StoreOk

/-- What stays known when the store moves on. -/
structure Later (s s' : Store) : Prop where
  clock : s.clock.seconds ≤ s'.clock.seconds
  granted : s.granted ⊆ s'.granted
  drawn : s.drawn ⊆ s'.drawn
  cells : ∀ key version value, Agrees Keeps version value (s.scopes key) →
    Agrees Keeps version value (s'.scopes key)

lemma Later.refl (s : Store) : Later s s :=
  ⟨le_rfl, fun _ h => h, fun _ h => h, fun _ _ _ h => h⟩

/-- A count and a partition of what was read under it. -/
def Snapshot (s : Store) (key : String) (w : Watched) (live : List Lease)
    (expired : Dict Lease) : Prop :=
  ∃ raw, ∃ t ≤ s.clock.seconds, Agrees Keeps w.scope raw (s.scopes key) ∧
    (∀ entry ∈ raw, FromGrant s.granted key entry) ∧
    partition (.finite t) raw = .ok (live, expired)

lemma Snapshot.later {s s' : Store} {key : String} {w : Watched} {live : List Lease}
    {expired : Dict Lease} (h : Snapshot s key w live expired) (hs : Later s s') :
    Snapshot s' key w live expired := by
  obtain ⟨raw, t, ht, hagrees, hfrom, hpart⟩ := h
  exact ⟨raw, t, ht.trans hs.clock, hs.cells _ _ _ hagrees,
    fun entry hentry => (hfrom entry hentry).mono hs.granted, hpart⟩

lemma Snapshot.expired_of_mem {s : Store} (hs : StoreOk s) {key : String} {w : Watched}
    {live : List Lease} {expired : Dict Lease} (h : Snapshot s key w live expired) {g : Grant}
    (hg : g ∈ s.granted) (hmem : g.lease.leaseId ∈ expired.map Prod.fst) :
    g.lease.isExpired s.clock.float = true := by
  obtain ⟨raw, t, ht, -, hfrom, hpart⟩ := h
  obtain ⟨⟨i, l⟩, hil, hid⟩ := List.mem_map.mp hmem
  obtain ⟨hraw, hexp⟩ := ((mem_partition hpart).2 i l).mp hil
  obtain ⟨g', hg', -, hid', hl⟩ := hfrom _ hraw
  have hsame : g = g' := hs.eq_of_id hg hg' (by rw [hid', ← hid])
  obtain ⟨e, he, -⟩ := hs.expiries g hg
  cases hl
  subst hsame
  rw [isExpired_finite he] at hexp
  rw [Reading.float, isExpired_finite he]
  exact hexp.trans ht

/-- A reservation the code turns to Redis for, with a lifetime no longer than the keys'. -/
def Goal.Ok : Goal → Prop
  | reserve r => r.check = .ok () ∧ r.ttlSeconds ≤ keyTtlSeconds
  | sweep _ _ => True

def ClientOk (ns : String) (s : Store) : Client → Prop
  | .idle => True
  | .starting goal _ => goal.Ok
  | .watching goal w => goal.Ok ∧ w.scope ≤ (s.scopes (goal.key ns)).version
  | .fetched goal w raw => goal.Ok ∧ Agrees Keeps w.scope raw (s.scopes (goal.key ns)) ∧
      ∀ entry ∈ raw, FromGrant s.granted (goal.key ns) entry
  | .counted r w live expired => (Goal.reserve r).Ok ∧
      Snapshot s (scopeKey ns r.kind r.scope) w live expired
  | .granting r w expired l => (Goal.reserve r).Ok ∧
      (∃ live, Snapshot s (scopeKey ns r.kind r.scope) w live expired ∧ r.fits live = true) ∧
      ∃ now : Reading, now.seconds ≤ s.clock.seconds ∧
        ∃ token ∈ s.drawn, r.lease? token now.float = some l
  | .pruning key _ w expired => ∃ live, Snapshot s key w live expired
  | .releasing _ _ => True
  | .locating _ _ _ => True
  | .located leaseId _ _ key => ∃ g ∈ s.granted, g.lease.leaseId = leaseId ∧ g.key = key
  | .removing leaseId key _ => ∃ g ∈ s.granted, g.lease.leaseId = leaseId ∧ g.key = key

lemma ClientOk.later {ns : String} {s s' : Store} {c : Client} (h : ClientOk ns s c)
    (hs : Later s s') : ClientOk ns s' c := by
  cases c with
  | idle => trivial
  | starting goal tries => exact h
  | watching goal w =>
    have hversion := (hs.cells (goal.key ns) _ _ (Agrees.read le_rfl)).past
    exact ⟨h.1, h.2.trans hversion⟩
  | fetched goal w raw =>
    obtain ⟨hgoal, hagrees, hfrom⟩ := h
    exact ⟨hgoal, hs.cells _ _ _ hagrees, fun entry he => (hfrom entry he).mono hs.granted⟩
  | counted r w live expired => exact ⟨h.1, h.2.later hs⟩
  | granting r w expired l =>
    obtain ⟨hgoal, ⟨live, hsnap, hfits⟩, now, hnow, token, htoken, hlease⟩ := h
    exact ⟨hgoal, ⟨live, hsnap.later hs, hfits⟩, now, hnow.trans hs.clock, token,
      hs.drawn htoken, hlease⟩
  | pruning key rest w expired =>
    obtain ⟨live, hsnap⟩ := h
    exact ⟨live, hsnap.later hs⟩
  | releasing leaseId tries => trivial
  | locating leaseId tries index => trivial
  | located leaseId tries index key =>
    obtain ⟨g, hg, hrest⟩ := h
    exact ⟨g, hs.granted hg, hrest⟩
  | removing leaseId key w =>
    obtain ⟨g, hg, hrest⟩ := h
    exact ⟨g, hs.granted hg, hrest⟩

/-! ### What the transactions keep -/

section Delete

variable {s : Store} {key : String} {ids : List String}

lemma mem_delete_scope {k : String} {entry : String × Stored} :
    entry ∈ ((s.delete key ids).scopes k).value ↔
      entry ∈ (s.scopes k).value ∧ (k = key → entry.1 ∉ ids) := by
  by_cases hk : k = key
  · subst hk
    simp [Store.delete, hdel_value]
  · simp [Store.delete, hk]

lemma mem_delete_index (key : String) {entry : String × String} :
    entry ∈ (s.delete key ids).index.value ↔ entry ∈ s.index.value ∧ entry.1 ∉ ids := by
  simp [Store.delete, hdel_value]

lemma later_delete (released : List String) :
    Later s { s.delete key ids with released := released } := by
  refine ⟨le_rfl, fun _ h => h, fun _ h => h, ?_⟩
  intro k version value hagrees
  by_cases hk : k = key
  · subst hk
    simp only [Store.delete, Function.update_self]
    rcases hdel_eq ids (s.scopes k) with heq | ⟨v, heq⟩
    · rw [heq]
      exact hagrees
    · rw [heq]
      exact hagrees.write v
  · simpa [Store.delete, hk] using hagrees

lemma StoreOk.delete (h : StoreOk s) (released : List String) (hsub : s.released ⊆ released)
    (hreleased : ∀ i ∈ released, i ∈ s.released ∨
      i ∈ ids ∧ ∃ g ∈ s.granted, g.lease.leaseId = i ∧ g.key = key)
    (hids : ∀ g ∈ s.granted, g.lease.leaseId ∈ ids → g.lease.leaseId ∉ released →
      g.lease.isExpired s.clock.float = true) :
    StoreOk { s.delete key ids with released := released } := by
  constructor
  case entries =>
    intro k entry hentry
    exact h.entries k entry (mem_delete_scope.mp hentry).1
  case unreleased =>
    intro k entry hentry hmem
    obtain ⟨hold, hkey⟩ := mem_delete_scope.mp hentry
    rcases hreleased _ hmem with hmem | ⟨hin, g, hg, hid, hgkey⟩
    · exact h.unreleased k entry hold hmem
    · obtain ⟨g', hg', hgkey', hid', -⟩ := h.entries k entry hold
      have hsame : g = g' := h.eq_of_id hg hg' (by rw [hid, hid'])
      subst hsame
      exact hkey (hgkey'.symm.trans hgkey) hin
  case listed =>
    intro entry hentry
    exact h.listed entry ((mem_delete_index key).mp hentry).1
  case unique => exact h.unique
  case amounts => exact h.amounts
  case expiries => exact h.expiries
  case present =>
    intro g hg hlive
    obtain ⟨hunreleased, hunexpired⟩ := hlive
    have hnot : g.lease.leaseId ∉ ids := by
      intro hin
      have hexp := hids g hg hin hunreleased
      change g.lease.isExpired s.clock.float = false at hunexpired
      rw [hexp] at hunexpired
      cases hunexpired
    obtain ⟨hscope, hindex⟩ := h.present g hg ⟨fun hin => hunreleased (hsub hin), hunexpired⟩
    exact ⟨mem_delete_scope.mpr ⟨hscope, fun _ => hnot⟩, (mem_delete_index key).mpr ⟨hindex, hnot⟩⟩
  case gone =>
    intro i hi
    rcases hreleased i hi with hi | ⟨-, g, hg, hid, -⟩
    · exact h.gone i hi
    · exact ⟨g, hg, hid⟩
  case tokens => exact h.tokens

end Delete

section Grant

variable {s : Store} {key : String} {expired : Dict Lease} {l : Lease}

lemma mem_grant_scope (hentries : ∀ kv ∈ (s.scopes key).value, FromGrant s.granted key kv)
    (hfresh : ∀ g ∈ s.granted, g.lease.leaseId ≠ l.leaseId) {k : String}
    {entry : String × Stored} :
    entry ∈ ((s.grant key expired l).scopes k).value ↔
      entry ∈ (s.scopes k).value ∧ (k = key → entry.1 ∉ expired.map Prod.fst) ∨
        k = key ∧ entry = (l.leaseId, .lease l) := by
  by_cases hk : k = key
  · subst hk
    have hnew : ∀ kv ∈ (s.scopes k).value, kv.1 ≠ l.leaseId := by
      intro kv hkv
      obtain ⟨g, hg, -, hid, -⟩ := hentries kv hkv
      rw [← hid]
      exact hfresh g hg
    simp only [Store.grant, Function.update_self, Cell.write_value, mem_grantScope hnew, true_and,
      forall_const]
  · simp [Store.grant, hk]

lemma StoreOk.mem_grant_index (h : StoreOk s)
    (hfresh : ∀ g ∈ s.granted, g.lease.leaseId ≠ l.leaseId) {entry : String × String} :
    entry ∈ (s.grant key expired l).index.value ↔
      entry ∈ s.index.value ∧ entry.1 ∉ expired.map Prod.fst ∨ entry = (l.leaseId, key) := by
  have hnew : ∀ kv ∈ s.index.value, kv.1 ≠ l.leaseId := by
    intro kv hkv
    obtain ⟨g, hg, hid, -⟩ := h.listed kv hkv
    rw [← hid]
    exact hfresh g hg
  simp only [Store.grant, Cell.write_value, mem_grantIndex hnew]

lemma later_grant : Later s (s.grant key expired l) := by
  refine ⟨le_rfl, fun _ h => List.mem_cons_of_mem _ h, fun _ h => h, ?_⟩
  intro k version value hagrees
  by_cases hk : k = key
  · subst hk
    simp only [Store.grant, Function.update_self]
    exact hagrees.write _
  · simpa [Store.grant, hk] using hagrees

lemma StoreOk.grant (h : StoreOk s) (hfresh : ∀ g ∈ s.granted, g.lease.leaseId ≠ l.leaseId)
    (hpruned : ∀ g ∈ s.granted, g.lease.leaseId ∈ expired.map Prod.fst →
      g.lease.isExpired s.clock.float = true)
    (hamount : ∃ q, 0 < q ∧ l.amount = .finite q)
    (hexpiry : ∃ e, l.expiresAt = .finite e ∧ e ≤ s.clock.seconds + keyTtlSeconds)
    (htoken : ∃ kind, ∃ token ∈ s.drawn, l.leaseId = leaseIdOf kind token) :
    StoreOk (s.grant key expired l) := by
  have hunreleased : l.leaseId ∉ s.released := by
    intro hmem
    obtain ⟨g, hg, hid⟩ := h.gone _ hmem
    exact hfresh g hg hid
  constructor
  case entries =>
    intro k entry hentry
    rcases (mem_grant_scope (h.entries key) hfresh).mp hentry with ⟨hold, -⟩ | ⟨rfl, rfl⟩
    · exact (h.entries k entry hold).mono fun _ hg => List.mem_cons_of_mem _ hg
    · exact ⟨⟨k, l⟩, List.mem_cons_self .., rfl, rfl, rfl⟩
  case unreleased =>
    intro k entry hentry
    rcases (mem_grant_scope (h.entries key) hfresh).mp hentry with ⟨hold, -⟩ | ⟨rfl, rfl⟩
    · exact h.unreleased k entry hold
    · exact hunreleased
  case listed =>
    intro entry hentry
    rcases (h.mem_grant_index hfresh).mp hentry with ⟨hold, -⟩ | rfl
    · obtain ⟨g, hg, hrest⟩ := h.listed entry hold
      exact ⟨g, List.mem_cons_of_mem _ hg, hrest⟩
    · exact ⟨⟨key, l⟩, List.mem_cons_self .., rfl, rfl⟩
  case unique =>
    simp only [Store.grant, List.map_cons, List.nodup_cons]
    refine ⟨?_, h.unique⟩
    intro hmem
    obtain ⟨g, hg, hid⟩ := List.mem_map.mp hmem
    exact hfresh g hg hid
  case amounts =>
    intro g hg
    rcases List.mem_cons.mp hg with rfl | hg
    · exact hamount
    · exact h.amounts g hg
  case expiries =>
    -- the new deadlines lie a whole lifetime ahead, beyond every expiry so far
    intro g hg
    have hbound : ∃ e, g.lease.expiresAt = .finite e ∧ e ≤ s.clock.seconds + keyTtlSeconds ∧
        (g ∈ s.granted → e ≤ s.scopeDeadline g.key) := by
      rcases List.mem_cons.mp hg with rfl | hold
      · obtain ⟨e, he, hle⟩ := hexpiry
        refine ⟨e, he, hle, ?_⟩
        intro hin
        exact absurd rfl (hfresh _ hin)
      · obtain ⟨e, he, hle, hscope, -⟩ := h.expiries g hold
        exact ⟨e, he, hle, fun _ => hscope⟩
    obtain ⟨e, he, hle, hscope⟩ := hbound
    refine ⟨e, he, hle, ?_, hle⟩
    by_cases hk : g.key = key
    · simp [Store.grant, hk, hle]
    · have hold : g ∈ s.granted := by
        rcases List.mem_cons.mp hg with rfl | hold
        · exact absurd rfl hk
        · exact hold
      simpa [Store.grant, hk] using hscope hold
  case present =>
    intro g hg hlive
    rcases List.mem_cons.mp hg with rfl | hold
    · exact ⟨(mem_grant_scope (h.entries key) hfresh).mpr (.inr ⟨rfl, rfl⟩),
        (h.mem_grant_index hfresh).mpr (.inr rfl)⟩
    · have hkept : g.lease.leaseId ∉ expired.map Prod.fst := by
        intro hin
        have hexp := hpruned g hold hin
        have hnot := hlive.2
        change g.lease.isExpired s.clock.float = false at hnot
        rw [hexp] at hnot
        cases hnot
      obtain ⟨hscope, hindex⟩ := h.present g hold hlive
      exact ⟨(mem_grant_scope (h.entries key) hfresh).mpr (.inl ⟨hscope, fun _ => hkept⟩),
        (h.mem_grant_index hfresh).mpr (.inl ⟨hindex, hkept⟩)⟩
  case gone =>
    intro i hi
    obtain ⟨g, hg, hid⟩ := h.gone i hi
    exact ⟨g, List.mem_cons_of_mem _ hg, hid⟩
  case tokens =>
    intro g hg
    rcases List.mem_cons.mp hg with rfl | hg
    · exact htoken
    · exact h.tokens g hg

end Grant

/-! ### What time and Redis keep -/

lemma StoreStep.later {s s' : Store} (h : StoreStep s s') : Later s s' := by
  cases h with
  | tick now hle => exact ⟨hle, fun _ h => h, fun _ h => h, fun _ _ _ h => h⟩
  | evictScope key counted hdue =>
    refine ⟨le_rfl, fun _ h => h, fun _ h => h, ?_⟩
    intro k version value hagrees
    by_cases hk : k = key
    · subst hk
      simp only [Store.evictScope, Function.update_self]
      split
      · exact hagrees.write _
      · exact hagrees.lose (by simp [Keeps])
    · simpa [Store.evictScope, hk] using hagrees
  | evictIndex counted hdue => exact ⟨le_rfl, fun _ h => h, fun _ h => h, fun _ _ _ h => h⟩

lemma evictScope_value {s : Store} {key k : String} {counted : Bool} :
    ((s.evictScope key counted).scopes k).value = if k = key then [] else (s.scopes k).value := by
  by_cases hk : k = key
  · subst hk
    cases counted <;> simp [Store.evictScope]
  · simp [Store.evictScope, hk]

lemma StoreStep.storeOk {s s' : Store} (hs : StoreOk s) (h : StoreStep s s') : StoreOk s' := by
  cases h with
  | tick now hle =>
    refine { hs with expiries := ?_, present := ?_ }
    · intro g hg
      obtain ⟨e, he, hclock, hdue⟩ := hs.expiries g hg
      refine ⟨e, he, hclock.trans ?_, hdue⟩
      show s.clock.seconds + keyTtlSeconds ≤ now.seconds + keyTtlSeconds
      linarith
    · intro g hg hlive
      obtain ⟨e, he, -⟩ := hs.expiries g hg
      exact hs.present g hg ⟨hlive.1, not_expired_of_le hle hlive.2⟩
  | evictScope key counted hdue =>
    have hsub : ∀ k, ∀ entry ∈ ((s.evictScope key counted).scopes k).value,
        entry ∈ (s.scopes k).value := by
      intro k entry hentry
      rw [evictScope_value] at hentry
      split at hentry
      · cases hentry
      · exact hentry
    refine { hs with
      entries := fun k entry h => hs.entries k entry (hsub k entry h)
      unreleased := fun k entry h => hs.unreleased k entry (hsub k entry h)
      present := ?_ }
    intro g hg hlive
    obtain ⟨hin, hindex⟩ := hs.present g hg hlive
    refine ⟨?_, hindex⟩
    obtain ⟨e, he, -, hdeadline, -⟩ := hs.expiries g hg
    have hexp := hlive.2
    rw [Bool.eq_false_iff, ne_eq] at hexp
    have hlt : s.clock.seconds < e := by
      have := mt (isExpired_finite he s.clock.seconds).mpr hexp
      linarith
    have hk : g.key ≠ key := by
      rintro rfl
      linarith
    rw [evictScope_value, if_neg hk]
    exact hin
  | evictIndex counted hdue =>
    have hindex : (s.evictIndex counted).index.value = [] := by
      cases counted <;> simp [Store.evictIndex]
    refine { hs with listed := ?_, present := ?_ }
    · intro entry hentry
      rw [hindex] at hentry
      cases hentry
    · intro g hg hlive
      obtain ⟨e, he, -, -, hdeadline⟩ := hs.expiries g hg
      have hexp := hlive.2
      rw [Bool.eq_false_iff, ne_eq] at hexp
      have := mt (isExpired_finite he s.clock.seconds).mpr hexp
      linarith

/-! ### What a client keeps -/

lemma clientOk_sweeping (ns : String) (s : Store) (tries : ℕ) (keys : List String) :
    ClientOk ns s (.sweeping tries keys) := by
  cases keys <;> trivial

lemma clientOk_retry {ns : String} {s : Store} {goal : Goal} (h : goal.Ok) (tries : ℕ) :
    ClientOk ns s (.retry goal tries) := by
  simp only [Client.retry]
  split
  · trivial
  · exact h

section ClientSteps

variable {ns : String} {s s' : Store} {c c' : Client} {e : Event}

lemma ClientOk.pending (h : ClientOk ns s c) {a : String} (ha : c.pending = some a) :
    ∃ kind, ∃ token ∈ s.drawn, a = leaseIdOf kind token := by
  cases c with
  | granting r w expired l =>
    cases ha
    obtain ⟨⟨hcheck, httl⟩, -, now, -, token, htoken, hlease⟩ := h
    exact ⟨r.kind, token, htoken, (Reservation.lease?_eq hcheck httl hlease).1⟩
  | _ => cases ha

lemma ClientStep.granted_inv {r : Reservation} {l : Lease}
    (h : ClientStep ns s c (.granted r l) s' c') : ∃ w expired, c = .granting r w expired l ∧
      s' = s.grant (scopeKey ns r.kind r.scope) expired l ∧
      s.Unwritten (scopeKey ns r.kind r.scope) w := by
  cases h with
  | grant r w expired l hexec => exact ⟨w, expired, rfl, rfl, hexec⟩

lemma ClientStep.counted_inv {key : String} {live : List Lease}
    (h : ClientStep ns s c (.counted key live) s' c') :
    ∃ raw expired, partition s.clock.float raw = .ok (live, expired) := by
  cases h with
  | count r w raw live expired hpart => exact ⟨raw, expired, hpart⟩

lemma later_draw (token : String) : Later s { s with drawn := token :: s.drawn } :=
  ⟨le_rfl, fun _ h => h, fun _ h => List.mem_cons_of_mem _ h, fun _ _ _ h => h⟩

lemma StoreOk.draw (h : StoreOk s) (token : String) :
    StoreOk { s with drawn := token :: s.drawn } := by
  refine { h with tokens := ?_ }
  intro g hg
  obtain ⟨kind, t, ht, hid⟩ := h.tokens g hg
  exact ⟨kind, t, List.mem_cons_of_mem _ ht, hid⟩

lemma ClientStep.later (h : ClientStep ns s c e s' c') : Later s s' := by
  cases h with
  | draw r w live expired token l hfits hnew hlease => exact later_draw token
  | grant r w expired l hexec => exact later_grant
  | prune key rest w expired hexec => exact later_delete s.released
  | remove leaseId key w hexec => exact later_delete (leaseId :: s.released)
  | _ => exact Later.refl _

lemma ClientStep.storeOk (hs : StoreOk s) (hc : ClientOk ns s c)
    (hfresh : ∀ a, c.pending = some a → ∀ g ∈ s.granted, g.lease.leaseId ≠ a)
    (h : ClientStep ns s c e s' c') : StoreOk s' := by
  cases h with
  | draw r w live expired token l hfits hnew hlease => exact hs.draw token
  | grant r w expired l hexec =>
    obtain ⟨⟨hcheck, httl⟩, ⟨live, hsnap, -⟩, now, hnow, token, htoken, hlease⟩ := hc
    obtain ⟨hid, hamount, hexpiry⟩ := Reservation.lease?_eq hcheck httl hlease
    refine hs.grant (hfresh _ rfl) (fun g hg hin => hsnap.expired_of_mem hs hg hin)
      ⟨_, r.amount.pos, hamount⟩ ⟨_, hexpiry, ?_⟩ ⟨r.kind, token, htoken, hid⟩
    have hq : (r.ttlSeconds : ℚ) ≤ keyTtlSeconds := by exact_mod_cast httl
    linarith
  | prune key rest w expired hexec =>
    obtain ⟨live, hsnap⟩ := hc
    exact hs.delete s.released (fun _ h => h) (fun _ h => .inl h)
      fun g hg hin _ => hsnap.expired_of_mem hs hg hin
  | remove leaseId key w hexec =>
    obtain ⟨g, hg, hid, hkey⟩ := hc
    refine hs.delete (leaseId :: s.released) (List.subset_cons_self _ _) ?_ ?_
    · intro i hi
      rcases List.mem_cons.mp hi with rfl | hi
      · exact .inr ⟨List.mem_cons_self .., g, hg, hid, hkey⟩
      · exact .inl hi
    · intro g' hg' hin hnot
      rw [List.mem_singleton] at hin
      rw [hin] at hnot
      exact absurd (List.mem_cons_self ..) hnot
  | _ => exact hs

lemma ClientStep.clientOk (hs : StoreOk s) (hc : ClientOk ns s c)
    (h : ClientStep ns s c e s' c') : ClientOk ns s' c' := by
  cases h with
  | reserve r tries hcheck httl => exact ⟨hcheck, httl⟩
  | release leaseId tries hid => trivial
  | expireAll tries => exact clientOk_sweeping ..
  | expireScopes tries scopes => exact clientOk_sweeping ..
  | watch goal tries => exact ⟨hc, le_rfl⟩
  | fetch goal w =>
    obtain ⟨hgoal, hversion⟩ := hc
    exact ⟨hgoal, Agrees.read hversion, hs.entries _⟩
  | corrupt goal w raw err hpart => trivial
  | count r w raw live expired hpart =>
    obtain ⟨hgoal, hagrees, hfrom⟩ := hc
    exact ⟨hgoal, raw, _, le_rfl, hagrees, hfrom, hpart⟩
  | deny r w live expired hfits => trivial
  | draw r w live expired token l hfits hnew hlease =>
    obtain ⟨hgoal, hsnap⟩ := hc
    exact ⟨hgoal, ⟨live, hsnap.later (later_draw token), hfits⟩, s.clock, le_rfl, token,
      List.mem_cons_self .., hlease⟩
  | grant r w expired l hexec => trivial
  | grantLost r w expired l hexec => exact clientOk_retry hc.1 _
  | nothingExpired key rest w raw live hpart => exact clientOk_sweeping ..
  | someExpired key rest w raw live expired hsome hpart =>
    obtain ⟨-, hagrees, hfrom⟩ := hc
    exact ⟨live, raw, _, le_rfl, hagrees, hfrom, hpart⟩
  | prune key rest w expired hexec => exact clientOk_sweeping ..
  | pruneLost key rest w expired hexec =>
    have hgoal : (Goal.sweep key rest).Ok := trivial
    exact clientOk_retry hgoal _
  | locate leaseId tries => trivial
  | unknown leaseId tries index hget => trivial
  | found leaseId tries index key hget =>
    obtain ⟨g, hg, hid, hkey⟩ := hs.listed _ (Dict.mem_of_get? hget)
    exact ⟨g, hg, hid, hkey⟩
  | watchScope leaseId tries index key => exact hc
  | remove leaseId key w hexec => trivial
  | removeLost leaseId key w hexec => split <;> trivial
  | abandon => trivial

end ClientSteps

/-! ### Runs -/

structure NetOk (ns : String) (n : Net) : Prop where
  store : StoreOk n.store
  clients : ∀ i, ClientOk ns n.store (n.clients i)
  fresh : ∀ i a, (n.clients i).pending = some a → ∀ g ∈ n.store.granted, g.lease.leaseId ≠ a
  distinct : ∀ i j a, (n.clients i).pending = some a → (n.clients j).pending = some a → i = j

lemma NetOk.ids {ns : String} {n : Net} (h : NetOk ns n) : n.IdsOk :=
  ⟨h.store.unique, h.store.tokens, fun i _ ha => (h.clients i).pending ha, h.fresh, h.distinct⟩

lemma NetOk.client {ns : String} {n : Net} {i : ℕ} {e : Event} {s : Store} {c : Client}
    (h : NetOk ns n) (hstep : ClientStep ns n.store (n.clients i) e s c) :
    NetOk ns ⟨s, Function.update n.clients i c⟩ := by
  have hids := h.ids.client hstep
  refine ⟨hstep.storeOk h.store (h.clients i) (h.fresh i), ?_, hids.fresh, hids.distinct⟩
  intro j
  by_cases hj : j = i
  · subst hj
    simpa using hstep.clientOk h.store (h.clients j)
  · simpa [hj] using (h.clients j).later hstep.later

lemma NetOk.step {ns : String} {n n' : Net} {e : Event} (h : NetOk ns n)
    (hstep : Net.Step ns n e n') : NetOk ns n' := by
  cases hstep with
  | client i hstep => exact h.client hstep
  | store hstep =>
    refine ⟨hstep.storeOk h.store, fun i => (h.clients i).later hstep.later, ?_, h.distinct⟩
    intro i a ha g hg
    rw [hstep.granted_eq] at hg
    exact h.fresh i a ha g hg

lemma Net.Reachable.ok {ns : String} {n : Net} (h : Net.Reachable ns n) : NetOk ns n := by
  induction h with
  | start t =>
    refine ⟨StoreOk.initial t, fun _ => trivial, ?_, ?_⟩
    · intro i a ha
      cases ha
    · intro i j a ha
      cases ha
  | step _ hstep ih => exact ih.step hstep

/-! ### The cap -/

section Cap

variable {ns : String} {n : Net}

lemma StoreOk.liveAmount_le {s : Store} (hs : StoreOk s) {key : String} {w : Watched}
    {live : List Lease} {expired : Dict Lease} (hsnap : Snapshot s key w live expired)
    (hexec : s.Unwritten key w) :
    s.liveAmount key ≤ (live.map fun l => l.amount.toRat).sum ∧
      ∀ l ∈ live, l.amount.isFinite ∧ 0 ≤ l.amount.toRat := by
  obtain ⟨raw, t, ht, hagrees, hfrom, hpart⟩ := hsnap
  have hkept : (s.scopes key).value ⊆ raw := hagrees.still hexec.1.symm
  have hlive := (mem_partition hpart).1
  have hnonneg : ∀ l ∈ live, l.amount.isFinite ∧ 0 ≤ l.amount.toRat := by
    intro l hl
    obtain ⟨i, hraw, -⟩ := (hlive l).mp hl
    obtain ⟨g, hg, -, -, heq⟩ := hfrom _ hraw
    cases heq
    obtain ⟨q, hq, hamount⟩ := hs.amounts g hg
    rw [hamount]
    exact ⟨rfl, hq.le⟩
  refine ⟨?_, hnonneg⟩
  have hnodup : ((s.liveGrants key).map Grant.lease).Nodup := by
    have hids : (((s.liveGrants key).map Grant.lease).map Lease.leaseId).Nodup := by
      rw [List.map_map]
      exact hs.unique.sublist (List.filter_sublist.map _)
    exact hids.of_map
  have hsubset : (s.liveGrants key).map Grant.lease ⊆ live := by
    intro l hl
    obtain ⟨g, hg, rfl⟩ := List.mem_map.mp hl
    simp only [Store.liveGrants, List.mem_filter, decide_eq_true_eq] at hg
    obtain ⟨hgranted, rfl, hglive⟩ := hg
    obtain ⟨e, he, -⟩ := hs.expiries g hgranted
    have hpresent := (hs.present g hgranted hglive).1
    exact (hlive g.lease).mpr
      ⟨_, hkept hpresent, not_expired_of_le ht hglive.2⟩
  obtain ⟨counted, hperm, hsub⟩ := List.subperm_of_subset hnodup hsubset
  calc s.liveAmount key
      = (((s.liveGrants key).map Grant.lease).map fun l => l.amount.toRat).sum := by
        simp [Store.liveAmount, Function.comp_def]
    _ = (counted.map fun l => l.amount.toRat).sum := (hperm.map _).sum_eq.symm
    _ ≤ (live.map fun l => l.amount.toRat).sum := by
        refine (hsub.map _).sum_le_sum ?_
        intro q hq
        obtain ⟨l, hl, rfl⟩ := List.mem_map.mp hq
        exact (hnonneg l hl).2

lemma liveAmount_grant_le (s : Store) (key : String) (expired : Dict Lease) {l : Lease} {q : ℚ}
    (hamount : l.amount = .finite q) (hq : 0 ≤ q) :
    (s.grant key expired l).liveAmount key ≤ s.liveAmount key + q := by
  have hrest : ((s.granted.filter fun g => g.key = key ∧ (s.grant key expired l).Live g).map
      fun g => g.lease.amount.toRat).sum = s.liveAmount key := rfl
  have hgrant : (s.grant key expired l).liveAmount key = (((⟨key, l⟩ :: s.granted).filter fun g =>
      g.key = key ∧ (s.grant key expired l).Live g).map fun g => g.lease.amount.toRat).sum := rfl
  rw [hgrant, List.filter_cons]
  split
  · rw [List.map_cons, List.sum_cons, hrest, hamount]
    show q + s.liveAmount key ≤ s.liveAmount key + q
    linarith
  · rw [hrest]
    linarith

/-- The system in which only client 0 is in a call. -/
def Net.solo (s : Store) (c : Client) : Net := ⟨s, Function.update (fun _ => .idle) 0 c⟩

lemma Net.Step.solo {s s' : Store} {c c' : Client} {e : Event} (h : ClientStep ns s c e s' c') :
    Net.Step ns (Net.solo s c) e (Net.solo s' c') := by
  have hstep : Net.Step ns (Net.solo s c) e
      ⟨s', Function.update (Net.solo s c).clients 0 c'⟩ :=
    .client 0 (by simpa [Net.solo] using h)
  simpa [Net.solo] using hstep

lemma Net.Reachable.solo_start (t : Reading) : Net.Reachable ns (Net.solo (.initial t) .idle) := by
  have h : Net.Reachable ns ⟨.initial t, fun _ => .idle⟩ := .start t
  simpa [Net.solo] using h

def oneSlot : Reservation where
  kind := .concurrency
  scope := ⟨.fleet, "default", by decide +kernel⟩
  providerClass := .subscription
  amount := .one
  unit := unitSlots
  hardCap := .one
  runId := "run"
  costSource := none
  ttlSeconds := 3600
  metadata := []

end Cap

end AgenticDynamics.Control
