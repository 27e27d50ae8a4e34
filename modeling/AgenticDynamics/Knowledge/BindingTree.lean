import AgenticDynamics.Library.Runs
import AgenticDynamics.Knowledge.SessionBinding

/-!
# Trees of session bindings

Children are minted from the binding of a session and written under sessions of their own, and the
context of every member may be updated. A child is minted with verbs of its parent only; an update
sets the verbs that its context names, on either side.
-/

namespace AgenticDynamics.Knowledge.BindingTree

open Python Python.Json SessionBinding

/-- A written binding: its payload, the payloads before its updates, the latest first, and the
session it was minted from. -/
structure Member where
  payload : Payload
  earlier : List Payload
  parent : Option String

def Member.updated (m : Member) (payload : Payload) : Member :=
  { m with payload, earlier := m.payload :: m.earlier }

@[simp] lemma updated_payload (m : Member) (p : Payload) : (m.updated p).payload = p := rfl

/-- A member that is written as a child, or as the root. -/
def Member.written (payload : Payload) (parent : Option String) : Member :=
  { payload, earlier := [], parent }

/-- The bindings of the store by session, and the minted ones, each with its parent's session. -/
structure Tree where
  members : Dict Member
  minted : List (String × Dict Json)

/-- A call, with the time of the process' clock. -/
inductive Call
  | mint (parent child role now : String)
  | write (index : ℕ) (now : String)
  | update (session : String) (context : Dict Json) (expected : ℤ) (now : String)

section Step

variable (host : Host) (ft : FloatText)

/-- `write_binding`: the store is as it was where the session has a binding or the new one is
refused. -/
def writeBinding (parent : Option String) (binding : Dict Json) (now : String)
    (members : Dict Member) : Dict Member :=
  match contentValue host binding "native_session_id" with
  | .error _ => members
  | .ok id   =>
    if (Dict.get? id.1 members).isSome then members
    else match bindingPayload host (Dict.setDefault "created_at" (.str now) binding) with
      | .error _    => members
      | .ok payload => Dict.set id.1 (.written payload parent) members

/-- `update_binding_context`; a refused update changes nothing. -/
def updateBinding (session : String) (context : Dict Json) (expected : ℤ) (now : String)
    (members : Dict Member) : Dict Member :=
  match Dict.get? (strip session) members with
  | none   => members
  | some m =>
    match applyContextUpdate host ft m.payload context expected now with
    | .error _    => members
    | .ok payload => Dict.set (strip session) (m.updated payload) members

def step (t : Tree) : Call → Tree
  | .mint parent child role now =>
    match Dict.get? parent t.members with
    | none   => t
    | some m =>
      match mintScopedBinding host ft (m.payload.fields host ft) child role now with
      | .error _    => t
      | .ok binding => { t with minted := t.minted ++ [(parent, binding)] }
  | .write index now =>
    match t.minted[index]? with
    | none                   => t
    | some (parent, binding) =>
      { t with members := writeBinding host (some parent) binding now t.members }
  | .update session context expected now =>
    { t with members := updateBinding host ft session context expected now t.members }

def start (root : Dict Json) (now : String) : Tree where
  members := writeBinding host none root now []
  minted := []

/-! ### Authority -/

/-- No child holds a verb that its parent does not hold. -/
def Narrow (members : Dict Member) : Prop :=
  ∀ child c parent p, Dict.get? child members = some c → c.parent = some parent →
    Dict.get? parent members = some p → ∀ verb ∈ c.payload.auth.verbs, verb ∈ p.payload.auth.verbs

/-- From one payload to the next, the epoch counts whether the authorization fields have changed,
and so does the authorization identity. -/
def Counted (next previous : Payload) : Prop :=
  next.authorizationVersion =
      previous.authorizationVersion + (if next.auth = previous.auth then 0 else 1) ∧
    (next.auth.identity host ft = previous.auth.identity host ft ↔ next.auth = previous.auth)

/-- The epoch counts along all updates of the member. -/
def Member.Versioned (m : Member) : Prop := (m.payload :: m.earlier).IsChain (Counted host ft)

/-- Authority narrows, and it is versioned. -/
def Lawful (t : Tree) : Prop :=
  Narrow t.members ∧ ∀ id m, Dict.get? id t.members = some m → m.Versioned host ft

/-- The vector of the context, if there is one, has verbs of the parent only, and all those of the
children. -/
def GrantFits (t : Tree) (session : String) (m : Member) (context : Dict Json) : Prop :=
  ∀ verbs, granted host context = some verbs →
    (∀ parent p, m.parent = some parent → Dict.get? parent t.members = some p →
      ∀ verb ∈ verbs, verb ∈ p.payload.auth.verbs) ∧
    ∀ child c, Dict.get? child t.members = some c → c.parent = some session →
      ∀ verb ∈ c.payload.auth.verbs, verb ∈ verbs

/-- No vector is recorded under a version of 0, or the update sets fields that are neither the
recorded ones nor those with 1 for the 0. -/
def VersionsFit (p : Payload) (context : Dict Json) : Prop :=
  p.auth.settle = p.auth ∨
    ∀ r, revised host ft p context = .ok r → r ≠ p.auth ∧ r ≠ p.auth.settle

def Fits (t : Tree) : Call → Prop
  | .mint _ _ _ _ => True
  | .write index now => ∀ parent binding p, t.minted[index]? = some (parent, binding) →
    writeBinding host (some parent) binding now t.members ≠ t.members →
      Dict.get? parent t.members = some p →
        ∀ verb ∈ (granted host binding).getD [], verb ∈ p.payload.auth.verbs
  | .update session context expected now => ∀ m q,
    Dict.get? (strip session) t.members = some m →
      applyContextUpdate host ft m.payload context expected now = .ok q →
        GrantFits host t (strip session) m context ∧ VersionsFit host ft m.payload context

end Step

/-- Every parent is a member, and another one than its child. -/
structure Rooted (t : Tree) : Prop where
  parent : ∀ id m parent, Dict.get? id t.members = some m → m.parent = some parent →
    (Dict.get? parent t.members).isSome ∧ parent ≠ id
  minted : ∀ parent binding, (parent, binding) ∈ t.minted → (Dict.get? parent t.members).isSome

variable {host : Host} {ft : FloatText} {t : Tree}

/-! ### What a call does -/

lemma writeBinding_cases (parent : Option String) (binding : Dict Json) (now : String)
    (members : Dict Member) :
    writeBinding host parent binding now members = members ∨ ∃ id payload,
      Dict.get? id members = none ∧
        bindingPayload host (Dict.setDefault "created_at" (.str now) binding) = .ok payload ∧
        writeBinding host parent binding now members =
          Dict.set id (.written payload parent) members := by
  unfold writeBinding
  cases contentValue host binding "native_session_id" with
  | error e => exact .inl rfl
  | ok id =>
    by_cases hsome : (Dict.get? id.1 members).isSome
    · exact .inl (if_pos hsome)
    · simp only [if_neg hsome]
      cases hpayload : bindingPayload host (Dict.setDefault "created_at" (.str now) binding) with
      | error e    => exact .inl rfl
      | ok payload =>
        exact .inr ⟨id.1, payload, Option.not_isSome_iff_eq_none.mp hsome, rfl, rfl⟩

lemma written_verbs {binding : Dict Json} {now : String} {p : Payload}
    (h : bindingPayload host (Dict.setDefault "created_at" (.str now) binding) = .ok p) :
    p.auth.verbs = (granted host binding).getD [] := by
  obtain ⟨hauth, -⟩ := bindingPayload_ok h
  have hget : Dict.get? "capabilities" (Dict.setDefault "created_at" (.str now) binding) =
      Dict.get? "capabilities" binding := by
    unfold Dict.setDefault
    split_ifs
    · rfl
    · simp [Dict.get?_append]
  simp only [authOf, hget, bind_eq_ok] at hauth
  obtain ⟨_, -, _, -, _, -, _, -, _, -, c, hc, hauth⟩ := hauth
  have hheld : p.auth.capabilities = c := by rw [← Except.ok.inj hauth]
  rw [Auth.verbs, hheld]
  cases hvalue : Dict.get? "capabilities" binding with
  | none =>
    rw [hvalue] at hc
    rw [← Except.ok.inj hc]
    simp [granted, hvalue]
  | some value =>
    rw [hvalue] at hc
    simp [granted, hvalue, hc]

lemma counted_iff (hsha : Function.Injective host.sha256) {p q : Payload} {context : Dict Json}
    {expected : ℤ} {now : String} (h : applyContextUpdate host ft p context expected now = .ok q) :
    Counted host ft q p ↔ VersionsFit host ft p context := by
  obtain ⟨hrevised, hepoch⟩ := applyContextUpdate_ok h
  simp only [ne_eq, identity_eq_iff hsha] at hepoch
  have hfit : VersionsFit host ft p context ↔
      p.auth.settle = p.auth ∨ q.auth ≠ p.auth ∧ q.auth ≠ p.auth.settle := by
    unfold VersionsFit
    rw [hrevised]
    simp
  rw [Counted, identity_eq_iff hsha, hepoch, hfit]
  by_cases hp : q.auth = p.auth <;> by_cases hs : q.auth = p.auth.settle
  · have hsettle : p.auth.settle = p.auth := hs.symm.trans hp
    simp [hp, hsettle]
  · have hsettle : p.auth.settle ≠ p.auth := fun h => hs (hp.trans h.symm)
    simp [hp, hsettle, Ne.symm hsettle]
  · have hsettle : p.auth.settle ≠ p.auth := fun h => hp (hs.trans h)
    simp [hs, hsettle]
  · simp [hp, hs]

/-! ### The start -/

lemma start_member {root : Dict Json} {now id : String} {m : Member}
    (h : Dict.get? id (start host root now).members = some m) :
    m.parent = none ∧ m.earlier = [] := by
  obtain hsame | ⟨key, payload, -, -, hset⟩ := @writeBinding_cases host none root now []
  · rw [start, hsame] at h
    cases h
  · rw [start, hset, Dict.get?_set] at h
    split_ifs at h
    · cases h
      exact ⟨rfl, rfl⟩
    · cases h

lemma rooted_start (root : Dict Json) (now : String) : Rooted (start host root now) where
  parent id m parent hm hparent := by
    rw [(start_member hm).1] at hparent
    cases hparent
  minted _ _ h := by cases h

lemma lawful_start (root : Dict Json) (now : String) : Lawful host ft (start host root now) := by
  constructor
  · intro child c parent p hc hparent
    rw [(start_member hc).1] at hparent
    cases hparent
  · intro id m hm
    rw [Member.Versioned, (start_member hm).2]
    exact List.isChain_singleton _

/-! ### The steps -/

section Written

variable {id : String} {payload : Payload} {parent : String}

lemma narrow_write (hrooted : Rooted t) (hnew : Dict.get? id t.members = none)
    {p : Member} (hp : Dict.get? parent t.members = some p) (hnarrow : Narrow t.members) :
    Narrow (Dict.set id (.written payload (some parent)) t.members) ↔
      ∀ verb ∈ payload.auth.verbs, verb ∈ p.payload.auth.verbs := by
  have hne : id ≠ parent := by
    rintro rfl
    rw [hnew] at hp
    cases hp
  constructor
  · intro h
    have hchild : Dict.get? id (Dict.set id (.written payload (some parent)) t.members) =
        some (.written payload (some parent)) := by
      rw [Dict.get?_set, if_pos rfl]
    exact h id _ parent p hchild rfl (by rw [Dict.get?_set, if_neg hne, hp])
  · intro hverbs child c parent' p' hc hparent hp'
    rw [Dict.get?_set] at hc hp'
    split_ifs at hc with hchild
    · subst hchild
      cases hc
      cases hparent
      rw [if_neg hne, hp] at hp'
      cases hp'
      exact hverbs
    · split_ifs at hp' with hsame
      · subst hsame
        exact absurd (hrooted.parent child c id hc hparent).1 (by rw [hnew]; simp)
      · exact hnarrow child c parent' p' hc hparent hp'

end Written

section Updated

variable {key : String} {m : Member} {q : Payload} {context : Dict Json}

lemma narrow_update (hrooted : Rooted t) (hm : Dict.get? key t.members = some m)
    (hverbs : q.auth.verbs = (granted host context).getD m.payload.auth.verbs)
    (hnarrow : Narrow t.members) :
    Narrow (Dict.set key (m.updated q) t.members) ↔
      GrantFits host t key m context := by
  have hkept (hgrant : granted host context = none) :
      (m.updated q).payload.auth.verbs = m.payload.auth.verbs := by
    rw [updated_payload, hverbs, hgrant]
    rfl
  have hset {verbs : List Token} (hgrant : granted host context = some verbs) :
      (m.updated q).payload.auth.verbs = verbs := by
    rw [updated_payload, hverbs, hgrant]
    rfl
  have hself : Dict.get? key (Dict.set key (m.updated q) t.members) = some (m.updated q) := by
    rw [Dict.get?_set, if_pos rfl]
  constructor
  · intro h verbs hgrant
    constructor
    · intro parent p hparent hp verb hverb
      have hne := (hrooted.parent key m parent hm hparent).2
      have hother : Dict.get? parent (Dict.set key (m.updated q) t.members) = some p := by
        rw [Dict.get?_set, if_neg (Ne.symm hne), hp]
      exact h key _ parent p hself hparent hother verb (by rwa [hset hgrant])
    · intro child c hc hparent verb hverb
      have hne := (hrooted.parent child c key hc hparent).2
      have hother : Dict.get? child (Dict.set key (m.updated q) t.members) = some c := by
        rw [Dict.get?_set, if_neg hne, hc]
      rw [← hset hgrant]
      exact h child c key _ hother hparent hself verb hverb
  · intro hfits child c parent p hc hparent hp verb hverb
    rw [Dict.get?_set] at hc hp
    split_ifs at hc with hchild
    · subst hchild
      cases hc
      have hne := (hrooted.parent key m parent hm hparent).2
      rw [if_neg (Ne.symm hne)] at hp
      cases hgrant : granted host context with
      | none =>
        rw [hkept hgrant] at hverb
        exact hnarrow key m parent p hm hparent hp verb hverb
      | some verbs =>
        rw [hset hgrant] at hverb
        exact (hfits verbs hgrant).1 parent p hparent hp verb hverb
    · split_ifs at hp with hsame
      · subst hsame
        cases hp
        cases hgrant : granted host context with
        | none =>
          rw [hkept hgrant]
          exact hnarrow child c key m hc hparent hm verb hverb
        | some verbs =>
          rw [hset hgrant]
          exact (hfits verbs hgrant).2 child c hc hparent verb hverb
      · exact hnarrow child c parent p hc hparent hp verb hverb

end Updated

/-! ### The law along a run -/

lemma versioned_updated {m : Member} {q : Payload} :
    (m.updated q).Versioned host ft ↔ Counted host ft q m.payload ∧ m.Versioned host ft :=
  List.isChain_cons_cons

lemma updateBinding_cases (session : String) (context : Dict Json) (expected : ℤ) (now : String)
    (members : Dict Member) :
    (updateBinding host ft session context expected now members = members ∧
      ∀ m q, Dict.get? (strip session) members = some m →
        applyContextUpdate host ft m.payload context expected now ≠ .ok q) ∨
    ∃ m q, Dict.get? (strip session) members = some m ∧
      applyContextUpdate host ft m.payload context expected now = .ok q ∧
      updateBinding host ft session context expected now members =
        Dict.set (strip session) (m.updated q) members := by
  unfold updateBinding
  cases hm : Dict.get? (strip session) members with
  | none => exact .inl ⟨rfl, fun m q h => by cases h⟩
  | some m =>
    cases hq : applyContextUpdate host ft m.payload context expected now with
    | error e =>
      refine .inl ⟨by simp only [hq], fun m' q h => ?_⟩
      cases h
      rw [hq]
      exact fun h => by cases h
    | ok q => exact .inr ⟨m, q, rfl, hq, by simp only [hq]⟩

lemma step_mint (parent child role now : String) :
    step host ft t (.mint parent child role now) = t ∨ ∃ m binding,
      Dict.get? parent t.members = some m ∧
        step host ft t (.mint parent child role now) =
          { t with minted := t.minted ++ [(parent, binding)] } := by
  cases hm : Dict.get? parent t.members with
  | none => exact .inl (by simp only [step, hm])
  | some m =>
    cases hmint : mintScopedBinding host ft (m.payload.fields host ft) child role now with
    | error e    => exact .inl (by simp only [step, hm, hmint])
    | ok binding => exact .inr ⟨m, binding, rfl, by simp only [step, hm, hmint]⟩

lemma rooted_step (c : Call) (h : Rooted t) : Rooted (step host ft t c) := by
  cases c with
  | mint parent child role now =>
    obtain hsame | ⟨m, binding, hm, hminted⟩ := @step_mint host ft t parent child role now
    · rw [hsame]
      exact h
    · rw [hminted]
      refine ⟨h.parent, fun parent' binding' hmem => ?_⟩
      obtain hmem | hmem := List.mem_append.mp hmem
      · exact h.minted parent' binding' hmem
      · cases List.mem_singleton.mp hmem
        rw [hm]
        rfl
  | write index now =>
    simp only [step]
    cases hminted : t.minted[index]? with
    | none => exact h
    | some entry =>
      obtain ⟨parent, binding⟩ := entry
      have hparent := h.minted parent binding (List.mem_of_getElem? hminted)
      obtain hsame | ⟨id, payload, hnew, -, hset⟩ :=
        @writeBinding_cases host (some parent) binding now t.members
      · simp only [hsame]
        exact h
      · simp only [hset]
        have hkept (key : String) (hkey : (Dict.get? key t.members).isSome) :
            (Dict.get? key (Dict.set id (.written payload (some parent)) t.members)).isSome := by
          rw [Dict.get?_set]
          split_ifs
          · rfl
          · exact hkey
        refine ⟨fun id' m parent' hm hparent' => ?_, fun parent' binding' hmem =>
          hkept parent' (h.minted parent' binding' hmem)⟩
        rw [Dict.get?_set] at hm
        split_ifs at hm with hid
        · subst hid
          cases hm
          cases hparent'
          refine ⟨hkept parent hparent, ?_⟩
          rintro rfl
          rw [hnew] at hparent
          cases hparent
        · obtain ⟨hsome, hne⟩ := h.parent id' m parent' hm hparent'
          exact ⟨hkept parent' hsome, hne⟩
  | update session context expected now =>
    simp only [step]
    obtain ⟨hsame, -⟩ | ⟨m, q, hm, -, hset⟩ :=
      @updateBinding_cases host ft session context expected now t.members
    · rw [hsame]
      exact h
    · rw [hset]
      have hkept (key : String) (hkey : (Dict.get? key t.members).isSome) :
          (Dict.get? key (Dict.set (strip session) (m.updated q) t.members)).isSome := by
        rw [Dict.get?_set]
        split_ifs
        · rfl
        · exact hkey
      refine ⟨fun id' m' parent' hm' hparent' => ?_, fun parent' binding' hmem =>
        hkept parent' (h.minted parent' binding' hmem)⟩
      rw [Dict.get?_set] at hm'
      split_ifs at hm' with hid
      · subst hid
        cases hm'
        obtain ⟨hsome, hne⟩ := h.parent _ m parent' hm hparent'
        exact ⟨hkept parent' hsome, hne⟩
      · obtain ⟨hsome, hne⟩ := h.parent id' m' parent' hm' hparent'
        exact ⟨hkept parent' hsome, hne⟩

lemma versioned_set {members : Dict Member} {key : String} {m : Member}
    (h : ∀ id m', Dict.get? id members = some m' → m'.Versioned host ft) :
    (∀ id m', Dict.get? id (Dict.set key m members) = some m' → m'.Versioned host ft) ↔
      m.Versioned host ft := by
  constructor
  · intro hset
    exact hset key m (by rw [Dict.get?_set, if_pos rfl])
  · intro hm id m' hm'
    rw [Dict.get?_set] at hm'
    split_ifs at hm'
    · cases hm'
      exact hm
    · exact h id m' hm'

lemma lawful_step_iff (hsha : Function.Injective host.sha256) (c : Call) (hrooted : Rooted t)
    (hlawful : Lawful host ft t) : Lawful host ft (step host ft t c) ↔ Fits host ft t c := by
  cases c with
  | mint parent child role now =>
    refine iff_of_true ?_ trivial
    obtain hsame | ⟨m, binding, -, hminted⟩ := @step_mint host ft t parent child role now
    · rwa [hsame]
    · rw [hminted]
      exact hlawful
  | write index now =>
    simp only [step, Fits]
    cases hminted : t.minted[index]? with
    | none => exact iff_of_true hlawful fun _ _ _ h => by cases h
    | some entry =>
      obtain ⟨parent, binding⟩ := entry
      obtain ⟨p, hp⟩ := Option.isSome_iff_exists.mp
        (hrooted.minted parent binding (List.mem_of_getElem? hminted))
      obtain hsame | ⟨id, payload, hnew, hpayload, hset⟩ :=
        @writeBinding_cases host (some parent) binding now t.members
      · refine iff_of_true ?_ fun _ _ _ h hwritten => ?_
        · simp only [hsame]
          exact hlawful
        · cases h
          exact absurd hsame hwritten
      · have hchanged : writeBinding host (some parent) binding now t.members ≠ t.members := by
          intro hsame
          have hfound : Dict.get? id t.members = some (.written payload (some parent)) := by
            rw [← hsame, hset, Dict.get?_set, if_pos rfl]
          rw [hnew] at hfound
          cases hfound
        have hversioned : ∀ key m, Dict.get? key (Dict.set id (.written payload (some parent))
            t.members) = some m → m.Versioned host ft :=
          (versioned_set hlawful.2).mpr (List.isChain_singleton _)
        simp only [hset]
        rw [Lawful, and_iff_left hversioned, narrow_write hrooted hnew hp hlawful.1,
          written_verbs hpayload]
        constructor
        · intro h _ _ p' hentry _ hp'
          cases hentry
          rw [hp] at hp'
          cases hp'
          exact h
        · intro h
          exact h parent binding p rfl hchanged hp
  | update session context expected now =>
    simp only [step, Fits]
    obtain ⟨hsame, hrefused⟩ | ⟨m, q, hm, hq, hset⟩ :=
      @updateBinding_cases host ft session context expected now t.members
    · rw [hsame]
      exact iff_of_true hlawful fun m q hm hq => absurd hq (hrefused m q hm)
    · obtain ⟨hrevised, -⟩ := applyContextUpdate_ok hq
      rw [hset, Lawful, narrow_update hrooted hm (revised_verbs hrevised) hlawful.1,
        versioned_set hlawful.2, versioned_updated, counted_iff hsha hq,
        and_iff_left (hlawful.2 _ m hm)]
      constructor
      · intro h m' q' hm' _
        rw [hm] at hm'
        cases hm'
        exact h
      · exact fun h => h m q hm hq

/-- In every tree that is built from a root, authority narrows and is versioned throughout exactly
when every call fits. -/
theorem authority_narrows_iff (hsha : Function.Injective host.sha256) (root : Dict Json)
    (now : String) (calls : List Call) :
    Runs.Throughout (step host ft) (Lawful host ft) (start host root now) calls ↔
      Runs.Along (step host ft) (Fits host ft) (start host root now) calls :=
  Runs.throughout_iff_along (fun _ c => rooted_step c) (fun _ c => lawful_step_iff hsha c)
    (rooted_start root now) (lawful_start root now)

/-! ### A child that outgrows its parent -/

def treeHost : Host where
  loads _ := .error ("JSONDecodeError", "")
  repr _ := ""
  upper := id
  lower := id
  sha256 := id
  dumps _ := ""
  fromisoformat _ := none

def rootBinding : Dict Json :=
  [("native_session_id", .str "root"), ("resolved_agent", .str "aio-control"),
    ("task_identity", .str "task"), ("original_request", .str "request"),
    ("capabilities", .obj [("verbs", .arr [.str "run_workflow"])])]

/-- A child is minted and written, and then granted a verb of its own. -/
def escalation : List Call :=
  [.mint "root" "child" "aio-control" "now", .write 0 "now",
    .update "child" [("capabilities", .obj [("verbs", .arr [.str "promote"])])] 1 "now"]

/-- What decides whether the run of calls on the root is lawful throughout. -/
theorem authority_of_escalation :
    Runs.Throughout (step treeHost .fraction) (Lawful treeHost .fraction)
        (start treeHost rootBinding "now") escalation ↔
      Runs.Along (step treeHost .fraction) (Fits treeHost .fraction)
        (start treeHost rootBinding "now") escalation :=
  authority_narrows_iff Function.injective_id rootBinding "now" escalation

/-- The members once the child of the root is written and updated. -/
def escalated (root : Member) : Dict Member :=
  updateBinding treeHost .fraction "child"
    [("capabilities", .obj [("verbs", .arr [.str "promote"])])] 1 "now"
    (writeBinding treeHost (some "root")
      (scopedBinding treeHost (root.payload.fields treeHost .fraction) "child"
        (strip "aio-control") "now" (ancestry treeHost .fraction root.payload)
        (scopedVerbs root.payload "aio-control")) "now"
      (start treeHost rootBinding "now").members)

lemma members_escalation {root : Member}
    (h : Dict.get? "root" (start treeHost rootBinding "now").members = some root) :
    (escalation.foldl (step treeHost .fraction) (start treeHost rootBinding "now")).members =
      escalated root := by
  simp only [escalation, List.foldl_cons, List.foldl_nil, step, h, mintScopedBinding_fields]
  rfl

/-- The verbs of a session, with its parent. -/
def held (members : Dict Member) (session : String) : Option (List String × Option String) :=
  (Dict.get? session members).map fun m => (m.payload.auth.verbs.map (·.1), m.parent)

lemma held_escalated :
    ((Dict.get? "root" (start treeHost rootBinding "now").members).bind fun root =>
      held (escalated root) "child") = some (["promote"], some "root") ∧
    ((Dict.get? "root" (start treeHost rootBinding "now").members).bind fun root =>
      held (escalated root) "root") = some (["run_workflow"], none) := by
  constructor <;> decide +kernel

/-- An update gives the child a verb that its parent does not hold. -/
theorem child_outgrows_parent : ¬ ∀ (host : Host) (ft : FloatText) (root : Dict Json)
    (now : String) (calls : List Call), Function.Injective host.sha256 →
      Runs.Throughout (step host ft) (Lawful host ft) (start host root now) calls := by
  intro h
  have hlawful := h treeHost .fraction rootBinding "now" escalation Function.injective_id
    escalation (List.prefix_refl _)
  obtain ⟨hchild, hroot⟩ := held_escalated
  obtain ⟨root, hstart, hchild⟩ := Option.bind_eq_some_iff.mp hchild
  rw [hstart, Option.bind_some] at hroot
  obtain ⟨c, hc, hheld⟩ := Option.map_eq_some_iff.mp hchild
  obtain ⟨p, hp, hheld'⟩ := Option.map_eq_some_iff.mp hroot
  have hnarrow := hlawful.1
  rw [members_escalation hstart] at hnarrow
  obtain ⟨hverbs, hparent⟩ := Prod.mk.inj hheld
  obtain ⟨verb, hverb, hname⟩ := List.map_eq_singleton_iff.mp hverbs
  have hmem := hnarrow "child" c "root" p hc hparent hp verb (by rw [hverb]; simp)
  have hmem' := List.mem_map_of_mem (f := (·.1)) hmem
  rw [(Prod.mk.inj hheld').1, hname] at hmem'
  exact absurd hmem' (by decide)

end AgenticDynamics.Knowledge.BindingTree
