import AgenticDynamics.Library.Python
import AgenticDynamics.Library.Runs

/-!
# Quarantines on two surfaces

The host and every container keep a ledger of their own, which replays openings and lifts, and share
a hash of what is contaminated now. A party answers from its ledger where that knows the identity,
and from the hash otherwise.
-/

namespace AgenticDynamics.Control.Quarantine

open Python Runs

/-! ### Records -/

inductive QuarantineKind
  | worktree | resultNamespace | ladderRung
  deriving DecidableEq

def QuarantineKind.value : QuarantineKind → String
  | worktree        => "worktree"
  | resultNamespace => "result_namespace"
  | ladderRung      => "ladder_rung"

inductive QuarantineReason
  | budgetLeaseExpired | concurrencyLeaseExpired | unknownCost | admissionBypass | manual

/-- `QuarantineRecord`; the instants are epoch seconds. -/
structure QuarantineRecord where
  kind : QuarantineKind
  identity : String
  reason : QuarantineReason
  why : String
  detectedAt : ℚ
  source : String := "operator"
  runId : String := ""
  leaseIds : List String := []
  costSource : Option String := none
  metadata : Dict Json := []
  lifted : Bool := false
  liftedAt : Option ℚ := none
  liftedBy : String := ""
  liftReason : String := ""

def entryIdFor (kind : QuarantineKind) (identity : String) : String := kind.value ++ "/" ++ identity

def QuarantineRecord.entryId (r : QuarantineRecord) : String := entryIdFor r.kind r.identity

/-- `validate`: what is wrong with a record. -/
def QuarantineRecord.problems (r : QuarantineRecord) : List String :=
  (if strip r.identity = "" then ["identity must be a non-empty string"] else []) ++
  (if strip r.source = "" then ["source must be a non-empty string"] else []) ++
  (if strip r.why = "" then
    ["why must be a non-empty string (an unexplained mark is unreviewable)"] else []) ++
  (if r.lifted ∧ strip r.liftedBy = "" then
    ["a lifted record must name who lifted it (lifted_by)"] else []) ++
  (if r.lifted ∧ r.liftedAt = none then ["a lifted record must carry lifted_at"] else [])

/-! ### Surfaces -/

/-- The host, or a container that shares no file with it. -/
inductive Party
  | host
  | container (name : String)
  deriving DecidableEq

/-- The ledger of each party, oldest record first, and the shared hash. -/
structure Surfaces where
  ledger : Party → List QuarantineRecord := fun _ => []
  hash : Dict QuarantineRecord := []

def replay (ledger : List QuarantineRecord) : Dict QuarantineRecord :=
  ledger.foldl (fun d r => Dict.set r.entryId r d) []

/-- The records of the hash for the entries that are not there yet. -/
def widen (hash latest : Dict QuarantineRecord) : Dict QuarantineRecord :=
  hash.foldl (fun d kv => Dict.setDefault kv.2.entryId kv.2 d) latest

/-- `active`, without its order: the newest record of the ledger under each entry, and the hash for
the entries that the ledger does not know. The hash can be out of reach. -/
def Surfaces.active (s : Surfaces) (p : Party) (reachable : Bool) : Dict QuarantineRecord :=
  (widen (if reachable then s.hash else []) (replay (s.ledger p))).filter fun kv => !kv.2.lifted

def Surfaces.isQuarantined (s : Surfaces) (p : Party) (reachable : Bool) (kind : QuarantineKind)
    (identity : String) : Bool :=
  (s.active p reachable).any fun kv => kv.2.kind = kind ∧ kv.2.entryId = entryIdFor kind identity

def Surfaces.append (s : Surfaces) (p : Party) (r : QuarantineRecord) : Surfaces :=
  { s with ledger := fun q => if q = p then s.ledger p ++ [r] else s.ledger q }

/-! ### Calls -/

/-- What the caller of `quarantine` or `lift` gives. -/
inductive Request
  | quarantine (reason : QuarantineReason) (why source runId : String) (leaseIds : List String)
    (costSource : Option String) (metadata : Dict Json)
  | lift (liftedBy liftReason : String)

/-- A call of a party; its clock reads `now`, and the hash answers its read and its write or not. -/
structure Call where
  party : Party
  kind : QuarantineKind
  identity : String
  request : Request
  now : ℚ
  reads : Bool := true
  writes : Bool := true

def Call.entryId (c : Call) : String := entryIdFor c.kind c.identity

def Call.opens (c : Call) : Bool :=
  match c.request with
  | .quarantine .. => true
  | .lift ..       => false

def Call.opened (c : Call) (reason : QuarantineReason) (why source runId : String)
    (leaseIds : List String) (costSource : Option String) (metadata : Dict Json) :
    QuarantineRecord :=
  { kind := c.kind, identity := c.identity, reason, why, detectedAt := c.now, source, runId,
    leaseIds, costSource, metadata }

/-- The record that lifts an existing one. -/
def Call.lifting (c : Call) (liftedBy liftReason : String) (existing : QuarantineRecord) :
    QuarantineRecord :=
  { existing with
    metadata := Dict.set "lifted_from" (.str existing.entryId) existing.metadata
    lifted := true
    liftedAt := some c.now
    liftedBy
    liftReason }

/-- `quarantine` and `lift`; the error is the problems of the `QuarantineFieldError`. -/
def Surfaces.apply (s : Surfaces) (c : Call) : Except (List String) Surfaces :=
  match c.request with
  | .quarantine reason why source runId leaseIds costSource metadata =>
    let record := c.opened reason why source runId leaseIds costSource metadata
    if record.problems ≠ [] then .error record.problems
    else if s.isQuarantined c.party c.reads c.kind c.identity then .ok s
    else
      let appended := s.append c.party record
      .ok (if c.writes then
        { appended with hash := Dict.set record.entryId record appended.hash } else appended)
  | .lift liftedBy liftReason =>
    match (s.active c.party c.reads).find? fun kv =>
        kv.2.kind = c.kind ∧ kv.2.identity = c.identity with
    | none          => .ok s
    | some existing =>
      let record := c.lifting liftedBy liftReason existing.2
      if record.problems ≠ [] then .error record.problems
      else
        let appended := s.append c.party record
        .ok (if c.writes then
          { appended with hash := Dict.erase record.entryId appended.hash } else appended)

/-! ### What a party answers -/

section Answers

variable {s t : Surfaces} {c : Call} {p : Party} {entry : String}

lemma entryIdFor_inj {kind kind' : QuarantineKind} {identity identity' : String}
    (h : entryIdFor kind identity = entryIdFor kind' identity') :
    kind = kind' ∧ identity = identity' := by
  have hlist := congrArg String.toList h
  cases kind <;> cases kind' <;>
    simp_all [entryIdFor, QuarantineKind.value, String.toList_append, ← String.toList_inj]

/-- Every record stands under its own entry, once. -/
structure Keyed (d : Dict QuarantineRecord) : Prop where
  own : ∀ kv ∈ d, kv.1 = kv.2.entryId
  once : (d.map Prod.fst).Nodup

lemma keyed_set {d : Dict QuarantineRecord} (h : Keyed d) (r : QuarantineRecord) :
    Keyed (Dict.set r.entryId r d) := by
  refine ⟨fun kv hkv => ?_, Dict.nodup_set h.once⟩
  rcases Dict.mem_set.mp hkv with rfl | ⟨hkv, -⟩
  · rfl
  · exact h.own kv hkv

lemma keyed_setDefault {d : Dict QuarantineRecord} (h : Keyed d) (r : QuarantineRecord) :
    Keyed (Dict.setDefault r.entryId r d) := by
  rw [Dict.setDefault]
  split_ifs with hthere
  · exact h
  · have hnew : ∀ kv ∈ d, kv.1 ≠ r.entryId :=
      Dict.get?_eq_none.mp (Option.not_isSome_iff_eq_none.mp hthere)
    rw [← Dict.set_of_new hnew]
    exact keyed_set h r

lemma keyed_replay (ledger : List QuarantineRecord) : Keyed (replay ledger) := by
  induction ledger using List.reverseRecOn with
  | nil => exact ⟨by simp [replay], by simp [replay]⟩
  | append_singleton ledger r ih =>
    rw [replay, List.foldl_append]
    exact keyed_set ih r

lemma keyed_widen {latest : Dict QuarantineRecord} (h : Keyed latest)
    (hash : Dict QuarantineRecord) : Keyed (widen hash latest) := by
  induction hash generalizing latest with
  | nil => exact h
  | cons kv hash ih => exact ih (keyed_setDefault h kv.2)

lemma get?_setDefault {r : QuarantineRecord} {d : Dict QuarantineRecord} (key entry : String) :
    Dict.get? entry (Dict.setDefault key r d) =
      (Dict.get? entry d).or (if key = entry then some r else none) := by
  rw [Dict.setDefault]
  split_ifs with hthere hkey hkey
  · subst hkey
    obtain ⟨old, hold⟩ := Option.isSome_iff_exists.mp hthere
    rw [hold, Option.some_or]
  · rw [Option.or_none]
  · rw [Dict.get?_append, if_pos hkey]
  · rw [Dict.get?_append, if_neg hkey]

lemma get?_widen {hash latest : Dict QuarantineRecord} (h : ∀ kv ∈ hash, kv.1 = kv.2.entryId) :
    Dict.get? entry (widen hash latest) =
      (Dict.get? entry latest).or (Dict.get? entry hash) := by
  induction hash generalizing latest with
  | nil => exact (Option.or_none).symm
  | cons kv hash ih =>
    have hcons : Dict.get? entry (kv :: hash) =
        (if kv.2.entryId = entry then some kv.2 else none).or (Dict.get? entry hash) := by
      rw [← h kv List.mem_cons_self]
      by_cases hkey : kv.1 = entry <;> simp [Dict.get?, hkey]
    rw [widen, List.foldl_cons, ← widen, ih fun kv' hkv' => h kv' (List.mem_cons_of_mem kv hkv'),
      get?_setDefault, Option.or_assoc, hcons]

lemma get?_replay_append {ledger : List QuarantineRecord} {r : QuarantineRecord} :
    Dict.get? entry (replay (ledger ++ [r])) =
      if r.entryId = entry then some r else Dict.get? entry (replay ledger) := by
  rw [replay, List.foldl_append]
  exact Dict.get?_set

/-! ### One entry -/

/-- What the surfaces say about one entry: the newest word of each ledger, and the hash. -/
structure Marks where
  ledger : Party → Option Bool
  hash : Bool

namespace Marks

variable (m : Marks)

def answer (p : Party) (reachable : Bool) : Bool := (m.ledger p).getD (reachable && m.hash)

/-- A party writes a word into its ledger, and into the hash where that answers. -/
def write (p : Party) (opens writes : Bool) : Marks where
  ledger q := if q = p then some opens else m.ledger q
  hash := if writes then opens else m.hash

/-- A call that asks for what its party sees already changes nothing. -/
def apply (p : Party) (opens reads writes : Bool) : Marks :=
  if m.answer p reads = opens then m else m.write p opens writes

/-- The host will hear of a call: the ledger of the host says the same or is the one that is
written, and where the host has none, the hash says the same or is written. -/
def Heard (p : Party) (opens reads writes : Bool) : Prop :=
  match m.ledger .host with
  | some word => p = .host ∨ word = opens
  | none      => m.hash = opens ∨ m.answer p reads ≠ opens ∧ (p = .host ∨ writes = true)

lemma answer_apply (p : Party) (opens reads writes : Bool) :
    (m.apply p opens reads writes).answer .host true = opens ↔ m.Heard p opens reads writes := by
  rw [apply, Heard]
  by_cases hsame : m.answer p reads = opens
  · rw [if_pos hsame]
    cases hhost : m.ledger .host with
    | some word =>
      have hanswer : m.answer .host true = word := by rw [answer, hhost, Option.getD_some]
      rw [hanswer]
      refine ⟨.inr, ?_⟩
      rintro (rfl | hword)
      · rw [← hsame, answer, hhost, Option.getD_some]
      · exact hword
    | none =>
      have hanswer : m.answer .host true = m.hash := by
        rw [answer, hhost, Option.getD_none, Bool.true_and]
      rw [hanswer]
      exact ⟨.inl, fun h => h.resolve_right fun hother => hother.1 hsame⟩
  · rw [if_neg hsame]
    by_cases hp : p = .host
    · subst hp
      have hanswer : (m.write .host opens writes).answer .host true = opens := rfl
      refine iff_of_true hanswer ?_
      cases hhost : m.ledger .host with
      | some word => exact .inl rfl
      | none => exact .inr ⟨hsame, .inl rfl⟩
    · have hanswer : (m.write p opens writes).answer .host true =
          (m.ledger .host).getD (if writes then opens else m.hash) := by
        simp only [answer, write, if_neg fun h : Party.host = p => hp h.symm, Bool.true_and]
      rw [hanswer]
      cases hhost : m.ledger .host with
      | some word => exact (or_iff_right hp).symm
      | none =>
        cases writes with
        | true => exact iff_of_true rfl (.inr ⟨hsame, .inr rfl⟩)
        | false =>
          refine ⟨.inl, fun h => h.resolve_right ?_⟩
          rintro ⟨-, hp' | hfalse⟩
          · exact hp hp'
          · exact Bool.false_ne_true hfalse

end Marks

def Surfaces.marks (s : Surfaces) (entry : String) : Marks where
  ledger p := (Dict.get? entry (replay (s.ledger p))).map fun r => !r.lifted
  hash := (Dict.get? entry s.hash).isSome

/-- The hash holds openings, each under its own entry. -/
structure HashKeyed (s : Surfaces) : Prop where
  keyed : Keyed s.hash
  opened : ∀ kv ∈ s.hash, kv.2.lifted = false

lemma active_iff (hs : HashKeyed s) (p : Party) (reachable : Bool) :
    (∃ kv ∈ s.active p reachable, kv.2.entryId = entry) ↔
      (s.marks entry).answer p reachable = true := by
  have hkeyed : Keyed (widen (if reachable then s.hash else []) (replay (s.ledger p))) :=
    keyed_widen (keyed_replay _) _
  have hget : Dict.get? entry (widen (if reachable then s.hash else []) (replay (s.ledger p))) =
      (Dict.get? entry (replay (s.ledger p))).or
        (Dict.get? entry (if reachable then s.hash else [])) := by
    refine get?_widen fun kv hkv => ?_
    split_ifs at hkv
    · exact hs.keyed.own kv hkv
    · cases hkv
  have hactive : (∃ kv ∈ s.active p reachable, kv.2.entryId = entry) ↔
      ∃ r, Dict.get? entry (widen (if reachable then s.hash else []) (replay (s.ledger p))) =
        some r ∧ r.lifted = false := by
    constructor
    · rintro ⟨kv, hkv, rfl⟩
      obtain ⟨hmem, hlive⟩ := List.mem_filter.mp hkv
      refine ⟨kv.2, Dict.get?_of_mem ?_ fun kv' hkv' hkey => ?_, by simpa using hlive⟩
      · rw [← hkeyed.own kv hmem]
        exact hmem
      · have hsame : (kv.1, kv'.2) ∈
            widen (if reachable then s.hash else []) (replay (s.ledger p)) := by
          rw [hkeyed.own kv hmem, ← hkey]
          exact hkv'
        exact Dict.value_unique hkeyed.once hsame hmem
    · rintro ⟨r, hr, hlive⟩
      have hmem := Dict.mem_of_get? hr
      exact ⟨(entry, r), List.mem_filter.mpr ⟨hmem, by simp [hlive]⟩, (hkeyed.own _ hmem).symm⟩
  have hledger : (s.marks entry).ledger p =
      (Dict.get? entry (replay (s.ledger p))).map fun r => !r.lifted := rfl
  have hhash : (s.marks entry).hash = (Dict.get? entry s.hash).isSome := rfl
  rw [hactive, hget, Marks.answer, hledger, hhash]
  cases Dict.get? entry (replay (s.ledger p)) with
  | some r => simp
  | none =>
    cases reachable with
    | false => simp [Dict.get?]
    | true =>
      cases hshared : Dict.get? entry s.hash with
      | none => simp [hshared]
      | some r =>
        have hopened : r.lifted = false := hs.opened _ (Dict.mem_of_get? hshared)
        simp [hshared, hopened]

lemma isQuarantined_eq (hs : HashKeyed s) (p : Party) (reachable : Bool) (kind : QuarantineKind)
    (identity : String) : s.isQuarantined p reachable kind identity =
      (s.marks (entryIdFor kind identity)).answer p reachable := by
  rw [Bool.eq_iff_iff, ← active_iff hs, Surfaces.isQuarantined, List.any_eq_true]
  constructor
  · rintro ⟨kv, hkv, hmatch⟩
    exact ⟨kv, hkv, (of_decide_eq_true hmatch).2⟩
  · rintro ⟨kv, hkv, hentry⟩
    exact ⟨kv, hkv, decide_eq_true ⟨(entryIdFor_inj hentry).1, hentry⟩⟩

/-! ### A call -/

lemma marks_append {r : QuarantineRecord} (writes : Bool) {hash : Dict QuarantineRecord}
    (hown : r.entryId = entry)
    (hhash : (Dict.get? entry hash).isSome = if writes then !r.lifted else (s.marks entry).hash) :
    ({ s.append p r with hash := hash } : Surfaces).marks entry =
      (s.marks entry).write p (!r.lifted) writes := by
  rw [Surfaces.marks, Marks.write, Marks.mk.injEq]
  refine ⟨?_, hhash⟩
  funext q
  by_cases hq : q = p
  · subst hq
    simp only [Surfaces.append, if_true, get?_replay_append, if_pos hown, Option.map_some]
  · simp only [Surfaces.append, if_neg hq]
    rfl

lemma marks_append_other {r : QuarantineRecord} {hash : Dict QuarantineRecord} {other : String}
    (hother : r.entryId ≠ other)
    (hhash : Dict.get? other hash = Dict.get? other s.hash) :
    ({ s.append p r with hash := hash } : Surfaces).marks other = s.marks other := by
  rw [Surfaces.marks, Surfaces.marks, Marks.mk.injEq]
  refine ⟨?_, by rw [hhash]⟩
  funext q
  by_cases hq : q = p
  · subst hq
    simp only [Surfaces.append, if_true, get?_replay_append, if_neg hother]
  · simp only [Surfaces.append, if_neg hq]

lemma hashKeyed_set (hs : HashKeyed s) {r : QuarantineRecord} (hopened : r.lifted = false) :
    HashKeyed { s.append p r with hash := Dict.set r.entryId r s.hash } := by
  refine ⟨keyed_set hs.keyed r, fun kv hkv => ?_⟩
  rcases Dict.mem_set.mp hkv with rfl | ⟨hkv, -⟩
  · exact hopened
  · exact hs.opened kv hkv

lemma hashKeyed_erase (hs : HashKeyed s) (r : QuarantineRecord) :
    HashKeyed { s.append p r with hash := Dict.erase r.entryId s.hash } := by
  refine ⟨⟨fun kv hkv => ?_, Dict.nodup_erase hs.keyed.once⟩, fun kv hkv => ?_⟩
  · exact hs.keyed.own kv (Dict.mem_erase.mp hkv).1
  · exact hs.opened kv (Dict.mem_erase.mp hkv).1

lemma get?_erase_self (key : String) (d : Dict QuarantineRecord) :
    Dict.get? key (Dict.erase key d) = none :=
  Dict.get?_eq_none.mpr fun _ hkv => (Dict.mem_erase.mp hkv).2

lemma apply_spec (hs : HashKeyed s) (h : s.apply c = .ok t) :
    t.marks c.entryId = (s.marks c.entryId).apply c.party c.opens c.reads c.writes ∧
      (∀ other, c.entryId ≠ other → t.marks other = s.marks other) ∧ HashKeyed t := by
  rw [Surfaces.apply] at h
  cases hrequest : c.request with
  | quarantine reason why source runId leaseIds costSource metadata =>
    have hopens : c.opens = true := by rw [Call.opens, hrequest]
    have hseen := isQuarantined_eq hs c.party c.reads c.kind c.identity
    rw [hopens, Marks.apply]
    simp only [hrequest, hseen] at h
    by_cases hbad :
        (c.opened reason why source runId leaseIds costSource metadata).problems ≠ []
    · rw [if_pos hbad] at h
      cases h
    · rw [if_neg hbad] at h
      by_cases hanswer : (s.marks c.entryId).answer c.party c.reads = true
      · rw [if_pos hanswer]
        rw [Call.entryId] at hanswer
        rw [if_pos hanswer, Except.ok.injEq] at h
        subst h
        exact ⟨rfl, fun _ _ => rfl, hs⟩
      · rw [if_neg hanswer]
        rw [Call.entryId] at hanswer
        rw [if_neg hanswer, Except.ok.injEq] at h
        subst h
        cases c.writes with
        | true =>
          refine ⟨marks_append true rfl ?_, fun other hother => ?_,
            hashKeyed_set hs rfl⟩
          · exact congrArg Option.isSome (Dict.get?_set.trans (if_pos rfl))
          · exact marks_append_other hother (Dict.get?_set.trans (if_neg hother))
        | false =>
          exact ⟨marks_append false rfl rfl,
            fun other hother => marks_append_other hother rfl, ⟨hs.keyed, hs.opened⟩⟩
  | lift liftedBy liftReason =>
    have hopens : c.opens = false := by rw [Call.opens, hrequest]
    rw [hopens, Marks.apply]
    simp only [hrequest] at h
    cases hfind : (s.active c.party c.reads).find? fun kv =>
        kv.2.kind = c.kind ∧ kv.2.identity = c.identity with
    | none =>
      rw [hfind, Except.ok.injEq] at h
      subst h
      have hanswer : (s.marks c.entryId).answer c.party c.reads = false := by
        rw [Bool.eq_false_iff, ne_eq, ← active_iff hs]
        rintro ⟨kv, hkv, hentry⟩
        obtain ⟨hkind, hidentity⟩ := entryIdFor_inj hentry
        simpa [hkind, hidentity] using List.find?_eq_none.mp hfind kv hkv
      rw [if_pos hanswer]
      exact ⟨rfl, fun _ _ => rfl, hs⟩
    | some existing =>
      rw [hfind] at h
      have hmatch : existing.2.kind = c.kind ∧ existing.2.identity = c.identity := by
        simpa using List.find?_some hfind
      obtain ⟨hkind, hidentity⟩ := hmatch
      have hown : (c.lifting liftedBy liftReason existing.2).entryId = c.entryId := by
        rw [QuarantineRecord.entryId, Call.entryId, ← hkind, ← hidentity]
        rfl
      have hanswer : (s.marks c.entryId).answer c.party c.reads = true := by
        rw [← active_iff hs]
        exact ⟨existing, List.mem_of_find?_eq_some hfind, hown⟩
      rw [if_neg (by simp [hanswer])]
      by_cases hbad : (c.lifting liftedBy liftReason existing.2).problems ≠ []
      · simp only [if_pos hbad] at h
        cases h
      · simp only [if_neg hbad, Except.ok.injEq] at h
        subst h
        cases c.writes with
        | true =>
          refine ⟨marks_append true hown ?_, fun other hother => ?_,
            hashKeyed_erase hs _⟩
          · rw [hown]
            exact congrArg Option.isSome (get?_erase_self c.entryId s.hash)
          · refine marks_append_other (hown ▸ hother) ?_
            rw [hown]
            exact Dict.get?_erase_of_ne _ (Ne.symm hother)
        | false =>
          exact ⟨marks_append false hown rfl,
            fun other hother => marks_append_other (hown ▸ hother) rfl, ⟨hs.keyed, hs.opened⟩⟩

/-! ### Histories -/

/-- The surfaces, and under every entry what the last call that was performed on it asked for. -/
structure History where
  surfaces : Surfaces := {}
  last : String → Option Bool := fun _ => none

def History.next (hist : History) (c : Call) : History :=
  match hist.surfaces.apply c with
  | .ok surfaces =>
    { surfaces, last := fun entry => if entry = c.entryId then some c.opens else hist.last entry }
  | .error _     => hist

/-- The host takes an entry for contaminated exactly when the last call on it asked for that. -/
def History.Told (hist : History) : Prop :=
  ∀ entry opens, hist.last entry = some opens →
    ((∃ kv ∈ hist.surfaces.active .host true, kv.2.entryId = entry) ↔ opens = true)

/-- The call raises, or the host will hear of it. -/
def HostHears (hist : History) (c : Call) : Prop :=
  ∀ surfaces, hist.surfaces.apply c = .ok surfaces →
    (hist.surfaces.marks c.entryId).Heard c.party c.opens c.reads c.writes

lemma told_next {hist : History} (hs : HashKeyed hist.surfaces) (htold : hist.Told) (c : Call) :
    (hist.next c).Told ↔ HostHears hist c := by
  rw [History.next, HostHears]
  cases happly : hist.surfaces.apply c with
  | error e =>
    refine iff_of_true htold fun surfaces hok => ?_
    cases hok
  | ok t =>
    obtain ⟨hown, hothers, hkeyed⟩ := apply_spec hs happly
    have hanswer := (hist.surfaces.marks c.entryId).answer_apply c.party c.opens c.reads c.writes
    rw [← hown] at hanswer
    constructor
    · intro hnext surfaces hok
      have hentry := hnext c.entryId c.opens (if_pos rfl)
      rw [active_iff hkeyed, ← Bool.eq_iff_iff] at hentry
      exact hanswer.mp hentry
    · intro hheard entry opens hlast
      change (if entry = c.entryId then some c.opens else hist.last entry) = some opens at hlast
      rw [active_iff hkeyed, ← Bool.eq_iff_iff]
      by_cases hentry : entry = c.entryId
      · rw [if_pos hentry, Option.some.injEq] at hlast
        rw [hentry, ← hlast]
        exact hanswer.mpr (hheard t rfl)
      · rw [if_neg hentry] at hlast
        rw [hothers entry (Ne.symm hentry), Bool.eq_iff_iff, ← active_iff hs]
        exact htold entry opens hlast

lemma hashKeyed_next {hist : History} (hs : HashKeyed hist.surfaces) (c : Call) :
    HashKeyed (hist.next c).surfaces := by
  rw [History.next]
  cases happly : hist.surfaces.apply c with
  | error e => exact hs
  | ok t => exact (apply_spec hs happly).2.2

/-- The host follows the calls of all parties in every state of a history exactly when it hears of
every call: when its own ledger is silent and the hash tells it, or already says what was asked. -/
theorem host_told_iff (calls : List Call) :
    Throughout History.next History.Told {} calls ↔ Along History.next HostHears {} calls := by
  have hempty : HashKeyed ({} : Surfaces) := ⟨⟨by simp, by simp⟩, by simp⟩
  have hkeyed (hist : History) (c : Call) (hs : HashKeyed hist.surfaces) :
      HashKeyed (hist.next c).surfaces := hashKeyed_next hs c
  refine @throughout_iff_along _ _ History.next HostHears History.Told
    (fun hist => HashKeyed hist.surfaces) _ calls hkeyed ?_ hempty ?_
  · exact fun hist c hs htold => told_next hs htold c
  · intro entry opens hlast
    cases hlast

def markWorktree (party : Party) (now : ℚ) : Call where
  party
  kind := .worktree
  identity := "wt_a"
  request := .quarantine .manual "stuck" "operator" "" [] none []
  now

/-- The host marks and lifts, and a container marks again. -/
def reopening : List Call :=
  [markWorktree .host 1,
    { markWorktree .host 2 with request := .lift "operator" "measured again" },
    markWorktree (.container "cell") 3]

theorem reopened_unseen : ¬ Throughout History.next History.Told {} reopening := by
  intro h
  have hlast : (reopening.foldl History.next {}).last "worktree/wt_a" = some true := by
    decide +kernel
  have hunseen : ¬ ∃ kv ∈ (reopening.foldl History.next {}).surfaces.active .host true,
      kv.2.entryId = "worktree/wt_a" := by decide +kernel
  exact hunseen ((h reopening (List.prefix_refl _) _ _ hlast).mpr rfl)

end Answers

end AgenticDynamics.Control.Quarantine
