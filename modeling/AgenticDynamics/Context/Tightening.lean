import AgenticDynamics.Context.Compiled

/-!
# Challenges

A challenge profile is merged into the requirements of a contract, fact by fact. What the merged
requirement demands is the strictest of what was demanded, in the order of the tables; whether it
still demands what the contract did is another matter.
-/

namespace AgenticDynamics.Context

open Python

/-! ### Demands -/

/-- `e` demands at least what `r` does. -/
structure Enforces (e r : FactRequirement) : Prop where
  fact : e.fact = r.fact
  scope : e.scope = r.scope
  age : ∀ m, r.maxAgeSeconds = some m → ∃ m', e.maxAgeSeconds = some m' ∧ m' ≤ m
  floor : r.floor ≤ e.floor
  missing : onMissingStrictness r.onMissing ≤ onMissingStrictness e.onMissing
  conflict : onConflictStrictness r.onConflict ≤ onConflictStrictness e.onConflict
  valueType : ∀ t, r.valueType = some t → t ≠ "" → e.valueType = some t

/-- What is demanded of a fact, the contract's last demand before those of the challenge. -/
def demands (contract : ContractSpec) (challenge : ChallengeProfile) (fact : String) :
    List FactRequirement :=
  (contract.requiresFacts.filter fun r => r.fact = fact).getLast?.toList ++
    challenge.contextRequirements.filter fun r => r.fact = fact

/-- Some demand is as strict as `r` in each respect. For the authority it is the first of those
that rank highest in the table. -/
structure Kept (chain : List FactRequirement) (r : FactRequirement) : Prop where
  scope : ∀ q ∈ chain, q.scope = r.scope
  age : ∀ m, r.maxAgeSeconds = some m → ∃ q ∈ chain, ∃ m', q.maxAgeSeconds = some m' ∧ m' ≤ m
  floor : ∀ q ∈ chain.argmax fun q => minAuthorityRank q.minAuthority, r.floor ≤ q.floor
  missing : ∃ q ∈ chain, onMissingStrictness r.onMissing ≤ onMissingStrictness q.onMissing
  conflict : ∃ q ∈ chain, onConflictStrictness r.onConflict ≤ onConflictStrictness q.onConflict
  valueType : ∀ t, r.valueType = some t → t ≠ "" → ∃ q ∈ chain, q.valueType = some t

/-- `e` is what the demands of a chain were merged into. -/
structure Strictest (chain : List FactRequirement) (e : FactRequirement) : Prop where
  fact : ∀ q ∈ chain, q.fact = e.fact
  scope : ∀ q ∈ chain, q.scope = e.scope
  age : ∀ m, (∃ m', e.maxAgeSeconds = some m' ∧ m' ≤ m) ↔
    ∃ q ∈ chain, ∃ m', q.maxAgeSeconds = some m' ∧ m' ≤ m
  authority : ∃ q ∈ chain.argmax fun q => minAuthorityRank q.minAuthority,
    e.minAuthority = q.minAuthority
  missing : ∀ n, n ≤ onMissingStrictness e.onMissing ↔
    ∃ q ∈ chain, n ≤ onMissingStrictness q.onMissing
  conflict : ∀ n, n ≤ onConflictStrictness e.onConflict ↔
    ∃ q ∈ chain, n ≤ onConflictStrictness q.onConflict
  valueType : ∀ t ≠ "", e.valueType = some t ↔ ∃ q ∈ chain, q.valueType = some t

lemma le_rank_stricter (rank : String → ℕ) (existing addition : String) (n : ℕ) :
    n ≤ rank (stricter rank existing addition) ↔ n ≤ rank existing ∨ n ≤ rank addition := by
  unfold stricter
  split <;> omega

lemma minAge_le (a b : Option ℤ) (m : ℤ) : (∃ m', minAge a b = some m' ∧ m' ≤ m) ↔
    (∃ m', a = some m' ∧ m' ≤ m) ∨ ∃ m', b = some m' ∧ m' ≤ m := by
  cases a <;> cases b <;> simp [minAge]

namespace Strictest

variable {chain : List FactRequirement} {e r addition : FactRequirement}

lemma singleton (r : FactRequirement) : Strictest [r] r := by
  constructor <;> simp

lemma snoc {host : Host} (h : Strictest chain e) (hmerge : tighten host e addition = .ok r) :
    Strictest (chain ++ [addition]) r := by
  unfold tighten at hmerge
  split at hmerge
  · cases hmerge
  next hfact =>
  rw [ne_eq, not_not] at hfact
  split at hmerge
  · cases hmerge
  next hscope =>
  rw [ne_eq, not_not] at hscope
  split at hmerge
  · cases hmerge
  next htypes =>
  cases hmerge
  constructor
  · intro q hq
    rcases List.mem_append.mp hq with hq | hq
    · exact h.fact q hq
    · rw [List.mem_singleton.mp hq]
      exact hfact.symm
  · intro q hq
    rcases List.mem_append.mp hq with hq | hq
    · exact h.scope q hq
    · rw [List.mem_singleton.mp hq]
      exact hscope.symm
  · intro m
    simp only [minAge_le, h.age, List.mem_append, List.mem_singleton, or_and_right, exists_or,
      exists_eq_left]
  · obtain ⟨q, hq, hauthority⟩ := h.authority
    rw [List.argmax_concat, hq]
    simp only [stricter, hauthority]
    split
    · exact ⟨addition, rfl, rfl⟩
    · exact ⟨q, rfl, rfl⟩
  · intro n
    simp only [le_rank_stricter, h.missing, List.mem_append, List.mem_singleton, or_and_right,
      exists_or, exists_eq_left]
  · intro n
    simp only [le_rank_stricter, h.conflict, List.mem_append, List.mem_singleton, or_and_right,
      exists_or, exists_eq_left]
  · intro t ht
    simp only [List.mem_append, List.mem_singleton, or_and_right, exists_or, exists_eq_left,
      ← h.valueType t ht]
    cases he : e.valueType with
    | none => simp [orType]
    | some t' =>
      by_cases hempty : t' = ""
      · subst hempty
        simp [orType, ht.symm]
      · cases ha : addition.valueType with
        | none => simp [orType, hempty]
        | some t'' =>
          have hsame : t' = t'' := by simpa [he, ha] using htypes
          simp [orType, hsame]

lemma of_foldlM {host : Host} {l : FactRequirement} {additions : List FactRequirement}
    (h : additions.foldlM (tighten host) l = .ok e) : Strictest (l :: additions) e := by
  induction additions using List.reverseRecOn generalizing e with
  | nil =>
    cases h
    exact singleton l
  | append_singleton additions addition ih =>
    rw [List.foldlM_append] at h
    obtain ⟨e', he', hlast⟩ := bind_eq_ok.mp h
    simp only [List.foldlM_cons, List.foldlM_nil, bind_pure] at hlast
    exact (ih he').snoc hlast

lemma enforces_iff (h : Strictest chain e) (hfact : e.fact = r.fact) :
    Enforces e r ↔ Kept chain r := by
  obtain ⟨q, hq, hauthority⟩ := h.authority
  have hfloor : e.floor = q.floor := by
    rw [FactRequirement.floor, hauthority]
    rfl
  constructor
  · intro henforces
    constructor
    · intro q hq
      exact (h.scope q hq).trans henforces.scope
    · intro m hm
      exact (h.age m).mp (henforces.age m hm)
    · intro q' hq'
      rw [Option.mem_unique hq' hq, ← hfloor]
      exact henforces.floor
    · exact (h.missing _).mp henforces.missing
    · exact (h.conflict _).mp henforces.conflict
    · intro t ht hne
      exact (h.valueType t hne).mp (henforces.valueType t ht hne)
  · intro hkept
    constructor
    · exact hfact
    · have hmem := List.argmax_mem hq
      exact (h.scope q hmem).symm.trans (hkept.scope q hmem)
    · intro m hm
      exact (h.age m).mpr (hkept.age m hm)
    · rw [hfloor]
      exact hkept.floor q hq
    · exact (h.missing _).mpr hkept.missing
    · exact (h.conflict _).mpr hkept.conflict
    · intro t ht hne
      exact (h.valueType t hne).mpr (hkept.valueType t ht hne)

end Strictest

/-! ### The composition -/

lemma get?_byFact (requirements : List FactRequirement) (fact : String) :
    (byFact requirements).get? fact = (requirements.filter fun r => r.fact = fact).getLast? := by
  induction requirements using List.reverseRecOn with
  | nil => rfl
  | append_singleton requirements req ih =>
    rw [byFact_append, Dict.get?_set, List.filter_append, ih]
    by_cases hfact : req.fact = fact
    · simp [hfact]
    · simp [hfact]

section Composition

variable {host : Host} {contract : ContractSpec} {challenge : ChallengeProfile}

/-- Each key is there once, and is the fact of its requirement. -/
structure Keyed (merged : Dict FactRequirement) : Prop where
  nodup : (merged.map Prod.fst).Nodup
  fact : ∀ kv ∈ merged, kv.1 = kv.2.fact

lemma Keyed.set {merged : Dict FactRequirement} (h : Keyed merged) {r : FactRequirement} :
    Keyed (merged.set r.fact r) := by
  refine ⟨Dict.nodup_set h.nodup, fun kv hkv => ?_⟩
  have hread := Dict.get?_of_mem hkv fun kv' hkv' hkey =>
    Dict.value_unique (Dict.nodup_set h.nodup) (hkey ▸ hkv') hkv
  rw [Dict.get?_set] at hread
  split at hread
  · next hkey =>
    rw [Option.some.injEq] at hread
    rw [← hread, hkey]
  · exact h.fact _ (Dict.mem_of_get? hread)

lemma Keyed.mem_iff {merged : Dict FactRequirement} (h : Keyed merged) {e : FactRequirement} :
    e ∈ merged.map Prod.snd ↔ merged.get? e.fact = some e := by
  constructor
  · intro he
    obtain ⟨⟨key, e'⟩, hmem, rfl⟩ := List.mem_map.mp he
    have hkey : key = e'.fact := h.fact _ hmem
    subst hkey
    exact Dict.get?_of_mem hmem fun kv hkv hkey => Dict.value_unique h.nodup (hkey ▸ hkv) hmem
  · intro he
    exact List.mem_map.mpr ⟨_, Dict.mem_of_get? he, rfl⟩

lemma keyed_byFact (requirements : List FactRequirement) : Keyed (byFact requirements) :=
  ⟨nodup_byFact requirements, fact_of_mem_byFact⟩

lemma mergeRequirement_ok {merged merged' : Dict FactRequirement} {req : FactRequirement}
    (h : mergeRequirement host contract challenge merged req = .ok merged') :
    ∃ r, merged' = merged.set req.fact r ∧ r.fact = req.fact ∧
      ((∃ existing, merged.get? req.fact = some existing ∧ tighten host existing req = .ok r) ∨
        merged.get? req.fact = none ∧ r = req) := by
  unfold mergeRequirement at h
  by_cases hexcluded : req.fact ∈ contract.excludes
  · simp [hexcluded, throw, throwThe, MonadExceptOf.throw, bind, Except.bind] at h
  simp only [hexcluded, if_false] at h
  obtain ⟨-, -, h⟩ := bind_eq_ok.mp h
  cases hget : merged.get? req.fact with
  | some existing =>
    rw [hget] at h
    obtain ⟨r, hr, h⟩ := bind_eq_ok.mp h
    refine ⟨r, (Except.ok.inj h).symm, ?_, .inl ⟨existing, rfl, hr⟩⟩
    have hfact := ((Strictest.singleton existing).snoc hr).fact req (by simp)
    exact hfact.symm
  | none =>
    rw [hget] at h
    exact ⟨req, (Except.ok.inj h).symm, rfl, .inr ⟨rfl, rfl⟩⟩

lemma foldlM_merge {requirements : List FactRequirement} {merged merged' : Dict FactRequirement}
    (hkeyed : Keyed merged)
    (h : requirements.foldlM (mergeRequirement host contract challenge) merged = .ok merged') :
    Keyed merged' ∧ ∀ fact first additions,
      (merged.get? fact).toList ++ (requirements.filter fun r => r.fact = fact) =
        first :: additions →
      ∃ e, merged'.get? fact = some e ∧ additions.foldlM (tighten host) first = .ok e := by
  induction requirements generalizing merged with
  | nil =>
    rw [List.foldlM_nil] at h
    rw [← Except.ok.inj h]
    refine ⟨hkeyed, fun fact first additions hchain => ?_⟩
    cases hget : merged.get? fact with
    | none => simp [hget] at hchain
    | some e =>
      simp only [hget, Option.toList_some, List.filter_nil, List.append_nil, List.cons.injEq]
        at hchain
      obtain ⟨rfl, rfl⟩ := hchain
      exact ⟨e, rfl, rfl⟩
  | cons req requirements ih =>
    rw [List.foldlM_cons] at h
    obtain ⟨next, hnext, hrest⟩ := bind_eq_ok.mp h
    obtain ⟨r, rfl, hr, hmerged⟩ := mergeRequirement_ok hnext
    rw [← hr] at hrest
    obtain ⟨hkeyed', hall⟩ := ih hkeyed.set hrest
    refine ⟨hkeyed', fun fact first additions hchain => ?_⟩
    by_cases hfact : req.fact = fact
    · subst hfact
      have htail := hall req.fact r (requirements.filter fun r => r.fact = req.fact)
      rw [Dict.get?_set, if_pos hr] at htail
      obtain ⟨e, he, hfold⟩ := htail rfl
      refine ⟨e, he, ?_⟩
      rw [List.filter_cons_of_pos (by simp)] at hchain
      rcases hmerged with ⟨existing, hget, htighten⟩ | ⟨hget, rfl⟩
      · rw [hget, Option.toList_some, List.singleton_append, List.cons.injEq] at hchain
        obtain ⟨rfl, rfl⟩ := hchain
        rw [List.foldlM_cons, htighten]
        exact hfold
      · rw [hget, Option.toList_none, List.nil_append, List.cons.injEq] at hchain
        obtain ⟨rfl, rfl⟩ := hchain
        exact hfold
    · apply hall fact first additions
      rw [Dict.get?_set, if_neg (fun h => hfact (hr.symm.trans h))]
      rwa [List.filter_cons_of_neg (by simpa using hfact)] at hchain

variable {effective : List FactRequirement}

lemma strictest_of_compose
    (h : composeRequirements host contract (some challenge) = .ok effective) {r : FactRequirement}
    (hr : r ∈ contract.requiresFacts) : ∃ e ∈ effective,
      Strictest (demands contract challenge r.fact) e ∧ e.fact = r.fact ∧
        ∀ e' ∈ effective, e'.fact = r.fact → e' = e := by
  obtain ⟨merged, hmerged, h⟩ := bind_eq_ok.mp h
  rw [← Except.ok.inj h]
  obtain ⟨hkeyed, hall⟩ := foldlM_merge (keyed_byFact contract.requiresFacts) hmerged
  have hlast : ((contract.requiresFacts.filter fun q => q.fact = r.fact).getLast?).isSome := by
    rw [List.getLast?_isSome]
    exact List.ne_nil_of_mem (List.mem_filter.mpr ⟨hr, by simp⟩)
  obtain ⟨l, hl⟩ := Option.isSome_iff_exists.mp hlast
  have hchain : demands contract challenge r.fact =
      l :: challenge.contextRequirements.filter fun q => q.fact = r.fact := by
    rw [demands, hl]
    rfl
  obtain ⟨e, he, hfold⟩ := hall r.fact _ _
    (by rw [get?_byFact]; exact hchain)
  have hstrictest : Strictest (demands contract challenge r.fact) e := by
    rw [hchain]
    exact Strictest.of_foldlM hfold
  have hfact : e.fact = r.fact := by
    have hl' := List.mem_filter.mp (List.mem_of_getLast? hl)
    rw [← hstrictest.fact l (by simp [hchain])]
    simpa using hl'.2
  refine ⟨e, hkeyed.mem_iff.mpr (by rw [hfact, he]), hstrictest, hfact, fun e' he' hfact' => ?_⟩
  rw [hkeyed.mem_iff, hfact', he] at he'
  exact (Option.some.inj he').symm

lemma enforced_iff_kept
    (h : composeRequirements host contract (some challenge) = .ok effective) {r : FactRequirement}
    (hr : r ∈ contract.requiresFacts) :
    (∃ e ∈ effective, Enforces e r) ↔ Kept (demands contract challenge r.fact) r := by
  obtain ⟨e, he, hstrictest, hfact, hunique⟩ := strictest_of_compose h hr
  rw [← hstrictest.enforces_iff hfact]
  constructor
  · rintro ⟨e', he', henforces⟩
    rwa [hunique e' he' henforces.fact] at henforces
  · intro henforces
    exact ⟨e, he, henforces⟩

end Composition

/-! ### Contexts -/

lemma blocks_iff_missing (name : String) : blocks name ↔ 1 ≤ onMissingStrictness name := by
  simp only [blocks, onMissingStrictness, strictness, List.lookup_cons, List.lookup_nil]
  split
  · next h => simp [beq_iff_eq.mp h]
  split
  · next h => simp [beq_iff_eq.mp h]
  split
  · next h => simp [beq_iff_eq.mp h]
  split
  · next h => simp [beq_iff_eq.mp h]
  · simp_all

lemma blocks_iff_conflict (name : String) : blocks name ↔ 2 ≤ onConflictStrictness name := by
  simp only [blocks, onConflictStrictness, strictness, List.lookup_cons, List.lookup_nil]
  split
  · next h => simp [beq_iff_eq.mp h]
  split
  · next h => simp [beq_iff_eq.mp h]
  split
  · next h => simp [beq_iff_eq.mp h]
  split
  · next h => simp [beq_iff_eq.mp h]
  · simp_all

def Refused (r : FactRequirement) (x : Resolution) : Prop := ∃ h, handling r x = some h ∧ blocks h

lemma refusal?_eq_none {r : FactRequirement} {x : Resolution} :
    Resolved.refusal? (r, x) = none ↔ ¬ Refused r x := by
  simp only [Resolved.refusal?, Refused]
  cases handling r x <;> simp

namespace Enforces

variable {e r : FactRequirement} {v : Verdict} {x y : Resolution}

lemma blocks_missing (h : Enforces e r) (hr : blocks r.onMissing) : blocks e.onMissing := by
  rw [blocks_iff_missing] at hr ⊢
  exact hr.trans h.missing

lemma blocks_conflict (h : Enforces e r) (hr : blocks r.onConflict) : blocks e.onConflict := by
  rw [blocks_iff_conflict] at hr ⊢
  exact hr.trans h.conflict

lemma tooOld (h : Enforces e r) {ref : FactRef} (hr : Context.tooOld r ref) :
    Context.tooOld e ref := by
  simp only [Context.tooOld, Option.any_eq_true, decide_eq_true_eq] at hr ⊢
  obtain ⟨m, hm, hlt⟩ := hr
  obtain ⟨m', hm', hle⟩ := h.age m hm
  exact ⟨m', hm', hle.trans_lt hlt⟩

lemma refused (h : Enforces e r) (hx : v.finish r = .ok x) (hy : v.finish e = .ok y)
    (hrefused : Refused r x) : Refused e y := by
  obtain ⟨name, hname, hblocks⟩ := hrefused
  cases x with
  | factRef ref => simp [handling] at hname
  | conflict c =>
    obtain ⟨candidates, -, rfl⟩ := finish_conflict.mp hx
    cases hy
    cases hname
    exact ⟨e.onConflict, rfl, h.blocks_conflict hblocks⟩
  | unknown u =>
    cases hname
    obtain ⟨reason, -, rfl | ⟨-, a, ref, rfl, hlow⟩⟩ := finish_unknown.mp hx
    · cases hy
      exact ⟨e.onMissing, rfl, h.blocks_missing hblocks⟩
    · rw [Verdict.finish, if_pos (hlow.trans_le h.floor)] at hy
      cases hy
      exact ⟨e.onMissing, rfl, h.blocks_missing hblocks⟩
  | stale s =>
    cases hname
    obtain ⟨ref, reason, -, ⟨-, rfl⟩ | ⟨-, a, rfl, -, hold⟩⟩ := finish_stale.mp hx
    · cases hy
      exact ⟨e.onMissing, rfl, h.blocks_missing hblocks⟩
    · rw [Verdict.finish] at hy
      split at hy
      · cases hy
        exact ⟨e.onMissing, rfl, h.blocks_missing hblocks⟩
      · simp only [Except.map, admitRef, h.tooOld hold, if_true] at hy
        cases hy
        exact ⟨e.onMissing, rfl, h.blocks_missing hblocks⟩

end Enforces

section Contexts

variable {host : Host} {now : String} {store : FactStore} {request : ContextRequest}
  {contract : ContractSpec} {challenge : ChallengeProfile}
  {effective : List FactRequirement} {advisory : List FactRef}

/-- Where the requirement asks for the age of a fact, there is one: its stamp and the clock are
both aware of their offset, or neither is. -/
def Dated (host : Host) (now decisionScopePath : String) (store : FactStore)
    (req : FactRequirement) : Prop :=
  ∀ fact others, slotOf decisionScopePath store req = .ok (some (fact :: others)) →
    factState now store fact = .current → verifyChain host fact store.resolve = [] →
      ¬ fact.authority < req.floor → ∃ age, ageSeconds host now fact.observedAt = .ok age

lemma finish_of_verdict {decisionScopePath : String} {req : FactRequirement} {v : Verdict}
    (h : verdict host now decisionScopePath store req = .ok v) :
    (∃ x, v.finish req = .ok x) ↔ Dated host now decisionScopePath store req := by
  obtain ⟨slot, hslot, hv⟩ := bind_eq_ok.mp h
  constructor
  · rintro ⟨x, hx⟩ fact others hslot' hcurrent hchain hhigh
    rw [hslot', Except.ok.injEq] at hslot
    subst hslot
    have hsound : verdictOn host now store fact (fact :: others) =
        .ok (.sound fact.authority (toFactRef host now fact)) :=
      verdictOn_sound.mpr ⟨hcurrent, hchain, rfl, rfl⟩
    rw [show verdictOn host now store fact (fact :: others) = .ok v from hv] at hsound
    cases Except.ok.inj hsound
    rw [Verdict.finish, if_neg hhigh] at hx
    cases href : toFactRef host now fact with
    | error e => simp [href, Except.map] at hx
    | ok ref =>
      obtain ⟨age, hage, -⟩ := toFactRef_eq_ok.mp href
      exact ⟨age, hage⟩
  · intro hdated
    cases v with
    | missing reason => exact ⟨_, rfl⟩
    | conflicted candidates => exact ⟨_, rfl⟩
    | stale ref => exact ⟨_, rfl⟩
    | sound a ref =>
      obtain ⟨_, hmissing⟩ | ⟨fact, others, hslot', hon⟩ := fact_of_verdict h
      · cases hmissing
      obtain ⟨hcurrent, hchain, rfl, rfl⟩ := verdictOn_sound.mp hon
      rw [Verdict.finish]
      split
      · exact ⟨_, rfl⟩
      · next hhigh =>
        obtain ⟨age, hage⟩ := hdated fact others hslot' hcurrent hchain hhigh
        have href := toFactRef_eq_ok.mpr ⟨age, hage, rfl⟩
        rw [href]
        exact ⟨_, rfl⟩

lemma compiled_admissible :
    (compiled host now store request contract effective advisory).admissible ↔
      ∀ r ∈ contract.invariants ++ effective,
        ¬ Refused r (outcome host now request.scopePath store r) := by
  simp only [compiled, snapshot, ← List.map_append, List.isEmpty_iff, List.filterMap_map,
    List.filterMap_eq_nil_iff, Function.comp, refusal?_eq_none]

lemma mem_of_mem_byFact {requirements : List FactRequirement} {r : FactRequirement}
    (h : r ∈ (byFact requirements).map Prod.snd) : r ∈ requirements := by
  rw [(keyed_byFact requirements).mem_iff, get?_byFact] at h
  exact List.mem_of_mem_filter (List.mem_of_getLast? h)

lemma Enforces.advisoryFor {e r : FactRequirement} (h : Enforces e r) :
    Context.advisoryFor host now store request.scopePath r =
      Context.advisoryFor host now store request.scopePath e := by
  obtain ⟨hfact, hscope, -⟩ := h
  cases e
  cases r
  cases hfact
  cases hscope
  rfl

lemma Enforces.verdict {e r : FactRequirement} (h : Enforces e r) :
    Context.verdict host now request.scopePath store r =
      Context.verdict host now request.scopePath store e :=
  verdict_congr host now request.scopePath store e h.fact.symm h.scope.symm

/-- The decision may be made in the context that is compiled. -/
def Admits (host : Host) (now : String) (store : FactStore) (request : ContextRequest)
    (contract : ContractSpec) (challenge : Option ChallengeProfile) : Prop :=
  ∃ ctx, compileContext host now store request contract challenge = .ok ctx ∧ ctx.admissible

/-- A contract whose every requirement is enforced admits what the challenge does, as long as no
age is missing that only the contract asks for. -/
lemma admits_of_enforced
    (heffective : composeRequirements host contract (some challenge) = .ok effective)
    (henforced : ∀ r ∈ contract.requiresFacts, ∃ e ∈ effective, Enforces e r)
    (hadmits : Admits host now store request contract (some challenge)) :
    Admits host now store request contract none ↔
      ∀ r ∈ (byFact contract.requiresFacts).map Prod.snd,
        Dated host now request.scopePath store r := by
  obtain ⟨ctx, hctx, hadmissible⟩ := hadmits
  obtain ⟨hscope, effective', advisory, heffective', hresolves, hadvisory, rfl⟩ :=
    compileContext_eq_ok.mp hctx
  rw [heffective, Except.ok.injEq] at heffective'
  subst heffective'
  rw [compiled_admissible] at hadmissible
  -- every requirement shares its verdict with the one that enforces it
  have hverdict : ∀ r ∈ (byFact contract.requiresFacts).map Prod.snd, ∃ e ∈ effective,
      Enforces e r ∧ verdict host now request.scopePath store r =
        .ok (verdictOf host now request.scopePath store e) := by
    intro r hr
    obtain ⟨e, he, henforces⟩ := henforced r (mem_of_mem_byFact hr)
    refine ⟨e, he, henforces, ?_⟩
    rw [henforces.verdict]
    exact (verdict_of_resolves hresolves (List.mem_append_right _ he)).1
  constructor
  · rintro ⟨ctx', hctx', -⟩ r hr
    obtain ⟨-, base, -, hbase, hresolves', -, -⟩ := compileContext_eq_ok.mp hctx'
    cases hbase
    obtain ⟨e, -, -, hv⟩ := hverdict r hr
    have hres := hresolves' r (List.mem_append_right _ hr)
    rw [resolveRequirement_eq, hv] at hres
    exact (finish_of_verdict hv).mp ⟨_, hres⟩
  · intro hdated
    have hresolves' : Resolves host now request.scopePath store
        (contract.invariants ++ (byFact contract.requiresFacts).map Prod.snd) := by
      intro r hr
      rcases List.mem_append.mp hr with hr | hr
      · exact hresolves r (List.mem_append_left _ hr)
      · obtain ⟨e, -, -, hv⟩ := hverdict r hr
        obtain ⟨x, hx⟩ := (finish_of_verdict hv).mpr (hdated r hr)
        have hres : resolveRequirement host now request.scopePath store r = .ok x := by
          rw [resolveRequirement_eq, hv]
          exact hx
        rw [hres, outcome_of_ok hres]
    have hadvisory' : ∃ lists, ((byFact contract.requiresFacts).map Prod.snd).mapM
        (advisoryFor host now store request.scopePath) = .ok lists := by
      rw [mapM_isOk]
      intro r hr
      obtain ⟨e, he, henforces, -⟩ := hverdict r hr
      rw [henforces.advisoryFor]
      exact mapM_isOk.mp ⟨advisory, hadvisory⟩ e he
    obtain ⟨lists, hlists⟩ := hadvisory'
    refine ⟨_, compileContext_eq_ok.mpr ⟨hscope, _, lists, rfl, hresolves', hlists, rfl⟩, ?_⟩
    rw [compiled_admissible]
    intro r hr hrefused
    rcases List.mem_append.mp hr with hr | hr
    · exact hadmissible r (List.mem_append_left _ hr) hrefused
    · obtain ⟨e, he, henforces, hv⟩ := hverdict r hr
      have hall := verdict_of_resolves hresolves (List.mem_append_right _ he)
      have hres := hresolves' r (List.mem_append_right _ hr)
      rw [resolveRequirement_eq, hv] at hres
      exact hadmissible e (List.mem_append_right _ he) (henforces.refused hres hall.2 hrefused)

/-- The challenge only tightens the contract exactly when the demands keep every requirement, and
no age is missing that only the contract asks for. -/
theorem challenge_only_tightens
    (heffective : composeRequirements host contract (some challenge) = .ok effective) :
    ((Admits host now store request contract (some challenge) →
        Admits host now store request contract none) ∧
      ∀ r ∈ contract.requiresFacts, ∃ e ∈ effective, Enforces e r) ↔
    (∀ r ∈ contract.requiresFacts, Kept (demands contract challenge r.fact) r) ∧
      (Admits host now store request contract (some challenge) →
        ∀ r ∈ (byFact contract.requiresFacts).map Prod.snd,
          Dated host now request.scopePath store r) := by
  constructor
  · rintro ⟨hadmits, henforced⟩
    refine ⟨fun r hr => (enforced_iff_kept heffective hr).mp (henforced r hr), fun hwith => ?_⟩
    exact (admits_of_enforced heffective henforced hwith).mp (hadmits hwith)
  · rintro ⟨hkept, hdated⟩
    have henforced : ∀ r ∈ contract.requiresFacts, ∃ e ∈ effective, Enforces e r :=
      fun r hr => (enforced_iff_kept heffective hr).mpr (hkept r hr)
    exact ⟨fun hwith => (admits_of_enforced heffective henforced hwith).mpr (hdated hwith),
      henforced⟩

end Contexts

/-- A challenge that asks for verified tests within half an hour. -/
def freshlyTested : ChallengeProfile where
  challenge := "freshly_tested"
  contextRequirements := [{ fact := "phase_test_verified", maxAgeSeconds := some 1800
                            minAuthority := "MEASURED" }]

theorem challenge_only_tightens_freshly_tested : ∃ effective,
    composeRequirements routeHost routeNextJob (some freshlyTested) = .ok effective ∧
    (Admits routeHost oneOClock (inMemoryFactStore routeFacts) routeRequest routeNextJob
        (some freshlyTested) →
      Admits routeHost oneOClock (inMemoryFactStore routeFacts) routeRequest routeNextJob none) ∧
    ∀ r ∈ routeNextJob.requiresFacts, ∃ e ∈ effective, Enforces e r := by
  have hok : (composeRequirements routeHost routeNextJob (some freshlyTested)).toOption.map
      List.length = some 3 := by decide +kernel
  obtain ⟨effective, heffective, -⟩ := ok_of_toOption_map hok
  refine ⟨effective, heffective, (challenge_only_tightens heffective).mpr ⟨?_, ?_⟩⟩
  · have hfirst : ∀ r ∈ routeNextJob.requiresFacts,
        r ∈ demands routeNextJob freshlyTested r.fact ∧
        (∀ q ∈ demands routeNextJob freshlyTested r.fact, q.scope = r.scope) ∧
        ∀ q ∈ (demands routeNextJob freshlyTested r.fact).argmax
          fun q => minAuthorityRank q.minAuthority, r.floor ≤ q.floor := by
      decide +kernel
    intro r hr
    obtain ⟨hmem, hscope, hfloor⟩ := hfirst r hr
    exact ⟨hscope, fun m hm => ⟨r, hmem, m, hm, le_refl m⟩, hfloor, ⟨r, hmem, le_refl _⟩,
      ⟨r, hmem, le_refl _⟩, fun t ht _ => ⟨r, hmem, ht⟩⟩
  · intro _ r hr fact others hslot _ _ _
    have hages : ∀ r ∈ (byFact routeNextJob.requiresFacts).map Prod.snd,
        ∀ f ∈ (inMemoryFactStore routeFacts).currentFacts r.fact,
          ageSeconds routeHost oneOClock f.observedAt = .ok 60 := by
      decide +kernel
    exact ⟨60, hages r hr fact (currentFact_of_slotOf hslot (by simp))⟩

/-- A contract that takes the cost of the job from its source only. -/
def costFromSource : ContractSpec where
  decisionType := "route_next_job"
  contractVersion := "route_next_job/v1"
  requiresFacts := [{ fact := "job_accumulated_cost_usd", minAuthority := "SOURCE" }]

/-- A challenge that asks for a measured cost. -/
def measuredCost : ChallengeProfile where
  challenge := "measured_cost"
  contextRequirements := [{ fact := "job_accumulated_cost_usd", minAuthority := "MEASURED" }]

/-- The table ranks a measured fact above one from the source, the authorities the other way
round: the challenge lowers the floor, and a refused decision is admitted. -/
theorem challenge_lowers_floor :
    composeRequirements routeHost costFromSource (some measuredCost) =
        .ok measuredCost.contextRequirements ∧
      Admits routeHost oneOClock (inMemoryFactStore [costFact]) routeRequest costFromSource
        (some measuredCost) ∧
      ¬ Admits routeHost oneOClock (inMemoryFactStore [costFact]) routeRequest costFromSource
        none ∧
      ¬ ∀ r ∈ costFromSource.requiresFacts, ∃ e ∈ measuredCost.contextRequirements,
        Enforces e r := by
  have hwith : (compileContext routeHost oneOClock (inMemoryFactStore [costFact]) routeRequest
      costFromSource (some measuredCost)).toOption.map ControlContext.admissible = some true := by
    decide +kernel
  have hwithout : (compileContext routeHost oneOClock (inMemoryFactStore [costFact]) routeRequest
      costFromSource none).toOption.map ControlContext.admissible = some false := by
    decide +kernel
  refine ⟨by decide +kernel, ok_of_toOption_map hwith, ?_, ?_⟩
  · rintro ⟨ctx, hctx, hadmissible⟩
    simp [hctx, Except.toOption, hadmissible] at hwithout
  · intro hall
    obtain ⟨e, he, henforces⟩ := hall _ (List.mem_singleton_self _)
    rw [List.mem_singleton.mp he] at henforces
    exact absurd henforces.floor (by decide)

end AgenticDynamics.Context
