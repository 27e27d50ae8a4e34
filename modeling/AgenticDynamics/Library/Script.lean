import Mathlib.Tactic

/-!
# Transactional scripts

A script is the program a client runs against a transactional store: it reads, writes, draws
values from its environment, and may stop at any statement with an error. An error does not
undo the writes made before it; only an enclosing transaction does.

Transactions are re-entrant. The outermost block decides: it keeps the store its body reached
when the body returns, and restores the store it started from when the body raises. An inner
block joins the outer one.

Two judgements carry the reasoning. `Ensures` is a postcondition for the runs that return.
`Commits` bounds what a script does to the store over *all* its runs, the raising ones included;
a transaction turns the first into the second.
-/

/-- What a script cannot decide for itself: which statements fail, and the strings it is handed
(fresh identifiers, clock readings), both indexed by the statements executed so far. -/
structure Oracle (ε : Type) where
  fault : ℕ → Option ε
  draw : ℕ → String

/-- An environment in which no statement fails and every drawn string is new. -/
def Oracle.quiet {ε : Type} : Oracle ε := ⟨fun _ => none, Nat.repr⟩

structure Session (σ : Type) where
  store : σ
  depth : ℕ := 0
  readOnly : Bool := false
  ticks : ℕ := 0

def Session.tick {σ : Type} (s : Session σ) : Session σ := { s with ticks := s.ticks + 1 }

/-- A program over a store `σ` that returns an `α` or raises an `ε`. -/
def Script (ε σ α : Type) := Oracle ε → Session σ → Except ε α × Session σ

namespace Script

variable {ε σ α β : Type}

/-! ### Statements -/

/-- The continuation runs only when the first script returned. -/
def bind (x : Script ε σ α) (f : α → Script ε σ β) : Script ε σ β := fun o s =>
  match x o s with
  | (.ok a, t)    => f a o t
  | (.error e, t) => (.error e, t)

instance : Monad (Script ε σ) where
  pure a := fun _ s => (.ok a, s)
  bind := Script.bind

/-- A computation that does not touch the store. -/
def lift (x : Except ε α) : Script ε σ α := fun _ s => (x, s)

def raise (e : ε) : Script ε σ α := lift (.error e)

def requireWritable (e : ε) : Script ε σ Unit := fun _ s =>
  if s.readOnly then (.error e, s) else (.ok (), s)

def draw : Script ε σ String := fun o s => (.ok (o.draw s.ticks), s.tick)

/-- A value of the surroundings at this point of the run. -/
def sample (f : ℕ → α) : Script ε σ α := fun _ s => (.ok (f s.ticks), s.tick)

def query (f : σ → α) : Script ε σ α := fun o s =>
  match o.fault s.ticks with
  | some e => (.error e, s.tick)
  | none   => (.ok (f s.store), s.tick)

/-- A statement that writes, or is refused by the store and then changes nothing. -/
def execute (f : σ → Except ε σ) : Script ε σ Unit := fun o s =>
  match o.fault s.ticks with
  | some e => (.error e, s.tick)
  | none   =>
    match f s.store with
    | .error e => (.error e, s.tick)
    | .ok t    => (.ok (), { s.tick with store := t })

/-- Run `body` in one transaction. The commit and the rollback themselves do not fail. -/
def transaction (readOnlyError : ε) (body : Script ε σ α) : Script ε σ α := fun o s =>
  if s.readOnly then (.error readOnlyError, s)
  else if s.depth ≠ 0 then
    let (r, t) := body o { s with depth := s.depth + 1 }
    (r, { t with depth := t.depth - 1 })
  else
    match o.fault s.ticks with
    | some e => (.error e, s.tick)
    | none   =>
      match body o { s.tick with depth := 1 } with
      | (.ok a, t)    => (.ok a, { t with depth := 0 })
      | (.error e, t) => (.error e, { t with store := s.store, depth := 0 })

/-- Run `x` and hand its error, if it is one of those caught, on as a result. -/
def caught {δ : Type} (catches : ε → Option δ) (x : Script ε σ α) : Script ε σ (Except δ α) :=
  fun o s =>
    match x o s with
    | (.ok a, t)    => (.ok (.ok a), t)
    | (.error e, t) =>
      match catches e with
      | some d => (.ok (.error d), t)
      | none   => (.error e, t)

/-- Run `x` and translate its error. -/
def mapError (f : ε → ε) (x : Script ε σ α) : Script ε σ α := fun o s =>
  match x o s with
  | (.ok a, t)    => (.ok a, t)
  | (.error e, t) => (.error (f e), t)

/-- Run `x` in an environment of its own. -/
def against (o : Oracle ε) (x : Script ε σ α) : Script ε σ α := fun _ s => x o s

/-- Run `f` on each item in turn and collect the results. -/
def collect (f : α → Script ε σ β) : List α → Script ε σ (List β)
  | []      => pure []
  | a :: as => do
    let b ← f a
    let bs ← collect f as
    pure (b :: bs)

/-! ### Single runs -/

section Run

variable {o : Oracle ε} {s t : Session σ}

lemma run_bind_ok {x : Script ε σ β} {b : β} (h : x o s = (.ok b, t)) (f : β → Script ε σ α) :
    (x >>= f) o s = f b o t := by
  show Script.bind x f o s = _
  simp only [Script.bind, h]

lemma run_bind_error {x : Script ε σ β} {e : ε} (h : x o s = (.error e, t))
    (f : β → Script ε σ α) : (x >>= f) o s = (.error e, t) := by
  show Script.bind x f o s = _
  simp only [Script.bind, h]

end Run

/-! ### Runs that return -/

/-- Every run of `x` from the store `s` that returns leaves a result and a store in `Q`. -/
def Ensures (x : Script ε σ α) (Q : α → σ → Prop) (s : σ) : Prop :=
  ∀ o (c : Session σ), c.store = s → ∀ a d, x o c = (.ok a, d) → Q a d.store

section Ensures

variable {s : σ} {Q Q' : α → σ → Prop}

lemma Ensures.mono {x : Script ε σ α} (h : Ensures x Q s) (hQ : ∀ a t, Q a t → Q' a t) :
    Ensures x Q' s :=
  fun o c hc a d hx => hQ _ _ (h o c hc a d hx)

lemma ensures_pure {a : α} (h : Q a s) : Ensures (pure a : Script ε σ α) Q s := by
  rintro o c rfl b d hx
  cases hx
  exact h

lemma ensures_lift {x : Except ε α} (h : ∀ a, x = .ok a → Q a s) :
    Ensures (lift x : Script ε σ α) Q s := by
  rintro o c rfl b d hx
  simp only [lift, Prod.mk.injEq] at hx
  obtain ⟨hb, rfl⟩ := hx
  exact h b hb

lemma ensures_raise (e : ε) : Ensures (raise e : Script ε σ α) Q s :=
  ensures_lift fun _ h => by cases h

lemma ensures_draw {Q : String → σ → Prop} (h : ∀ text, Q text s) :
    Ensures (draw : Script ε σ String) Q s := by
  rintro o c rfl b d hx
  cases hx
  exact h _

lemma ensures_requireWritable {e : ε} {Q : Unit → σ → Prop} (h : Q () s) :
    Ensures (requireWritable e : Script ε σ Unit) Q s := by
  rintro o c rfl b d hx
  simp only [requireWritable] at hx
  split at hx <;> cases hx
  exact h

lemma ensures_query {f : σ → α} (h : Q (f s) s) : Ensures (query f : Script ε σ α) Q s := by
  rintro o c rfl b d hx
  simp only [query] at hx
  split at hx <;> cases hx
  exact h

lemma ensures_execute {f : σ → Except ε σ} {Q : Unit → σ → Prop}
    (h : ∀ t, f s = .ok t → Q () t) : Ensures (execute f) Q s := by
  rintro o c rfl b d hx
  simp only [execute] at hx
  split at hx
  · cases hx
  · split at hx
    · cases hx
    · cases hx
      exact h _ ‹_›

lemma ensures_bind {x : Script ε σ β} {f : β → Script ε σ α}
    (h : Ensures x (fun b t => Ensures (f b) Q t) s) : Ensures (x >>= f) Q s := by
  rintro o c hc a d hx
  change Script.bind x f o c = _ at hx
  simp only [Script.bind] at hx
  split at hx
  case h_1 b u hb => exact h o c hc b u hb o u rfl a d hx
  case h_2 => cases hx

lemma ensures_transaction {x : Script ε σ α} {e : ε} (h : Ensures x Q s) :
    Ensures (transaction e x) Q s := by
  rintro o c rfl a d hx
  simp only [transaction] at hx
  split_ifs at hx with _ hd
  · cases hx
  · rcases hb : x o { c with depth := c.depth + 1 } with ⟨r, u⟩
    rw [hb] at hx
    cases hx
    exact h o { c with depth := c.depth + 1 } rfl a u hb
  · split at hx
    · cases hx
    · rcases hb : x o { c.tick with depth := 1 } with ⟨r, u⟩
      rw [hb] at hx
      cases r with
      | ok b =>
        cases hx
        exact h o { c.tick with depth := 1 } rfl a u hb
      | error e' => cases hx

lemma ensures_collect {f : β → Script ε σ α} {P : List β → List α → σ → Prop}
    (hstep : ∀ done rows b t, P done rows t →
      Ensures (f b) (fun a u => P (done ++ [b]) (rows ++ [a]) u) t)
    (bs done : List β) (rows : List α) (h : P done rows s) :
    Ensures (collect f bs) (fun as u => P (done ++ bs) (rows ++ as) u) s := by
  induction bs generalizing done rows s with
  | nil =>
    refine ensures_pure ?_
    simpa using h
  | cons b bs ih =>
    refine ensures_bind ((hstep done rows b s h).mono fun a t ha => ?_)
    refine ensures_bind ((ih (done ++ [b]) (rows ++ [a]) ha).mono fun as u has => ?_)
    refine ensures_pure ?_
    simpa using has

end Ensures

/-! ### All runs -/

/-- The run of `x` from `s` ends in `Q` when it returns and in `E` when it raises. -/
def Ends (x : Script ε σ α) (o : Oracle ε) (s : Session σ) (Q : α → Session σ → Prop)
    (E : ε → Session σ → Prop) : Prop :=
  match x o s with
  | (.ok a, t)    => Q a t
  | (.error e, t) => E e t

section Ends

variable {o : Oracle ε} {s : Session σ} {Q Q' : α → Session σ → Prop}
  {E E' : ε → Session σ → Prop}

lemma Ends.mono {x : Script ε σ α} (h : Ends x o s Q E) (hQ : ∀ a t, Q a t → Q' a t)
    (hE : ∀ e t, E e t → E' e t) : Ends x o s Q' E' := by
  simp only [Ends] at h ⊢
  split at h
  · exact hQ _ _ h
  · exact hE _ _ h

lemma Ends.of_ok {x : Script ε σ α} (h : Ends x o s Q E) {a : α} {t : Session σ}
    (hx : x o s = (.ok a, t)) : Q a t := by
  simpa only [Ends, hx] using h

lemma Ends.of_error {x : Script ε σ α} (h : Ends x o s Q E) {e : ε} {t : Session σ}
    (hx : x o s = (.error e, t)) : E e t := by
  simpa only [Ends, hx] using h

lemma ends_of_run {x : Script ε σ α} (hok : ∀ a t, x o s = (.ok a, t) → Q a t)
    (herr : ∀ e t, x o s = (.error e, t) → E e t) : Ends x o s Q E := by
  simp only [Ends]
  rcases hx : x o s with ⟨r, t⟩
  cases r with
  | ok a => exact hok a t hx
  | error e => exact herr e t hx

lemma Ends.of_ensures {x : Script ε σ α} {P : α → σ → Prop} (hx : Ensures x P s.store)
    (h : Ends x o s (fun _ _ => True) E) : Ends x o s (fun a t => P a t.store) E := by
  refine ends_of_run (fun a t hrun => hx o s rfl a t hrun) fun e t hrun => ?_
  exact h.of_error hrun

@[simp] lemma ends_pure {a : α} : Ends (pure a : Script ε σ α) o s Q E ↔ Q a s := Iff.rfl

@[simp] lemma ends_raise {e : ε} : Ends (raise e : Script ε σ α) o s Q E ↔ E e s := Iff.rfl

lemma ends_lift {x : Except ε α} (hok : ∀ a, x = .ok a → Q a s)
    (herr : ∀ e, x = .error e → E e s) : Ends (lift x : Script ε σ α) o s Q E := by
  cases x with
  | ok a => exact hok a rfl
  | error e => exact herr e rfl

lemma ends_bind {x : Script ε σ β} {f : β → Script ε σ α} :
    Ends (x >>= f) o s Q E ↔ Ends x o s (fun b t => Ends (f b) o t Q E) E := by
  simp only [Ends]
  change (match Script.bind x f o s with | (.ok a, t) => Q a t | (.error e, t) => E e t) ↔ _
  simp only [Script.bind]
  rcases x o s with ⟨r, t⟩
  cases r <;> rfl

lemma ends_bind_run {x : Script ε σ β} {f : β → Script ε σ α}
    (hok : ∀ b t, x o s = (.ok b, t) → Ends (f b) o t Q E)
    (herr : ∀ e t, x o s = (.error e, t) → E e t) : Ends (x >>= f) o s Q E := by
  rw [ends_bind]
  exact ends_of_run hok herr

@[simp] lemma ends_sample {f : ℕ → α} :
    Ends (sample f : Script ε σ α) o s Q E ↔ Q (f s.ticks) s.tick := Iff.rfl

lemma ends_query {f : σ → α} (hok : Q (f s.store) s.tick)
    (herr : ∀ e, o.fault s.ticks = some e → E e s.tick) : Ends (query f) o s Q E := by
  simp only [Ends, query]
  cases hfault : o.fault s.ticks with
  | none => exact hok
  | some e => exact herr e hfault

lemma ends_execute {f : σ → σ} {Q : Unit → Session σ → Prop}
    (hok : Q () { s.tick with store := f s.store })
    (herr : ∀ e, o.fault s.ticks = some e → E e s.tick) :
    Ends (execute fun t => .ok (f t)) o s Q E := by
  simp only [Ends, execute]
  cases hfault : o.fault s.ticks with
  | none => exact hok
  | some e => exact herr e hfault

@[simp] lemma ends_draw {Q : String → Session σ → Prop} {E : ε → Session σ → Prop} :
    Ends (draw : Script ε σ String) o s Q E ↔ Q (o.draw s.ticks) s.tick := Iff.rfl

lemma ends_requireWritable {e : ε} {Q : Unit → Session σ → Prop}
    (hok : s.readOnly = false → Q () s) (herr : s.readOnly = true → E e s) :
    Ends (requireWritable e : Script ε σ Unit) o s Q E := by
  simp only [Ends, requireWritable]
  cases hro : s.readOnly with
  | true => exact herr hro
  | false => exact hok hro

lemma ends_execute_result {f : σ → Except ε σ} {Q : Unit → Session σ → Prop}
    (hok : ∀ t, f s.store = .ok t → Q () { s.tick with store := t })
    (hrefused : ∀ e, f s.store = .error e → E e s.tick)
    (herr : ∀ e, o.fault s.ticks = some e → E e s.tick) : Ends (execute f) o s Q E := by
  simp only [Ends, execute]
  cases hfault : o.fault s.ticks with
  | some e => exact herr e hfault
  | none =>
    cases hf : f s.store with
    | ok t => exact hok t hf
    | error e => exact hrefused e hf

lemma ends_transaction {x : Script ε σ α} {e : ε} (h0 : s.depth = 0)
    (hro : s.readOnly = true → E e s)
    (hfault : ∀ e', o.fault s.ticks = some e' → E e' s.tick)
    (hbody : s.readOnly = false → Ends x o { s.tick with depth := 1 }
      (fun a t => Q a { t with depth := 0 })
      (fun e' t => E e' { t with store := s.store, depth := 0 })) :
    Ends (transaction e x) o s Q E := by
  simp only [Ends, transaction] at hbody ⊢
  split_ifs with hreadOnly hdepth
  · exact hro hreadOnly
  · exact absurd h0 hdepth
  · cases hbegin : o.fault s.ticks with
    | some e' => exact hfault e' hbegin
    | none =>
      have hrun := hbody (by simpa using hreadOnly)
      rcases hx : x o { s.tick with depth := 1 } with ⟨r, t⟩
      rw [hx] at hrun
      cases r <;> exact hrun

lemma ends_transaction_nested {x : Script ε σ α} {e : ε} (hdepth : s.depth ≠ 0)
    (hro : s.readOnly = true → E e s)
    (hbody : s.readOnly = false → Ends x o { s with depth := s.depth + 1 }
      (fun a t => Q a { t with depth := t.depth - 1 })
      (fun e' t => E e' { t with depth := t.depth - 1 })) :
    Ends (transaction e x) o s Q E := by
  simp only [Ends, transaction] at hbody ⊢
  split_ifs with hreadOnly
  · exact hro hreadOnly
  · have hrun := hbody (by simpa using hreadOnly)
    rcases hx : x o { s with depth := s.depth + 1 } with ⟨r, t⟩
    rw [hx] at hrun
    cases r <;> exact hrun

lemma ends_caught {δ : Type} {catches : ε → Option δ} {x : Script ε σ α}
    {Q : Except δ α → Session σ → Prop}
    (h : Ends x o s (fun a t => Q (.ok a) t)
      (fun e t => (∀ d, catches e = some d → Q (.error d) t) ∧ (catches e = none → E e t))) :
    Ends (caught catches x) o s Q E := by
  simp only [Ends, caught] at h ⊢
  rcases hx : x o s with ⟨r, t⟩
  rw [hx] at h
  cases r with
  | ok a => exact h
  | error e =>
    cases hc : catches e with
    | some d => simpa only [hc] using h.1 d hc
    | none => simpa only [hc] using h.2 hc

lemma ends_mapError {f : ε → ε} {x : Script ε σ α} (h : Ends x o s Q fun e t => E (f e) t) :
    Ends (mapError f x) o s Q E := by
  simp only [Ends, mapError] at h ⊢
  rcases hx : x o s with ⟨r, t⟩
  rw [hx] at h
  cases r <;> exact h

@[simp] lemma ends_against {o' : Oracle ε} {x : Script ε σ α} :
    Ends (against o' x) o s Q E ↔ Ends x o' s Q E := Iff.rfl

end Ends

-- a run is taken apart by the rules above, never by computing it
attribute [irreducible] Ends

/-! ### Scripts that only read -/

/-- `x` leaves the store and the nesting depth alone, whether it returns or raises. -/
def Reads (x : Script ε σ α) : Prop :=
  ∀ o s, (x o s).2.store = s.store ∧ (x o s).2.depth = s.depth

lemma reads_pure (a : α) : Reads (pure a : Script ε σ α) := fun _ _ => ⟨rfl, rfl⟩

lemma reads_lift (x : Except ε α) : Reads (lift x : Script ε σ α) := fun _ _ => ⟨rfl, rfl⟩

lemma reads_raise (e : ε) : Reads (raise e : Script ε σ α) := reads_lift _

lemma reads_draw : Reads (draw : Script ε σ String) := fun _ _ => ⟨rfl, rfl⟩

lemma reads_requireWritable (e : ε) : Reads (requireWritable e : Script ε σ Unit) := by
  intro o s
  simp only [requireWritable]
  split <;> exact ⟨rfl, rfl⟩

lemma reads_query (f : σ → α) : Reads (query f : Script ε σ α) := by
  intro o s
  simp only [query]
  split <;> exact ⟨rfl, rfl⟩

lemma Reads.bind {x : Script ε σ α} {f : α → Script ε σ β} (hx : Reads x)
    (hf : ∀ a, Reads (f a)) : Reads (x >>= f) := by
  intro o s
  change (Script.bind x f o s).2.store = s.store ∧ (Script.bind x f o s).2.depth = s.depth
  simp only [Script.bind]
  obtain ⟨hstore, hdepth⟩ := hx o s
  rcases hr : x o s with ⟨r, t⟩
  rw [hr] at hstore hdepth
  cases r with
  | ok a =>
    obtain ⟨hstore', hdepth'⟩ := hf a o t
    exact ⟨hstore'.trans hstore, hdepth'.trans hdepth⟩
  | error e => exact ⟨hstore, hdepth⟩

/-! ### Scripts that commit -/

/-- Started outside any transaction, `x` ends outside any transaction and either leaves the
store exactly as it was or moves it by `R`, whether it returns or raises. -/
def Commits (x : Script ε σ α) (R : σ → σ → Prop) : Prop :=
  ∀ o s, s.depth = 0 →
    (x o s).2.depth = 0 ∧ ((x o s).2.store = s.store ∨ R s.store (x o s).2.store)

section Commits

variable {R R' : σ → σ → Prop}

lemma Commits.mono {x : Script ε σ α} (h : Commits x R) (hR : ∀ s t, R s t → R' s t) :
    Commits x R' :=
  fun o s h0 => ⟨(h o s h0).1, (h o s h0).2.imp_right (hR _ _)⟩

lemma Reads.commits {x : Script ε σ α} (h : Reads x) : Commits x R :=
  fun o s h0 => ⟨(h o s).2.trans h0, .inl (h o s).1⟩

lemma commits_transaction {x : Script ε σ α} {e : ε}
    (hx : ∀ s, Ensures x (fun _ t => R s t) s) : Commits (transaction e x) R := by
  intro o s h0
  simp only [transaction]
  split_ifs with hro hd
  · exact ⟨h0, .inl rfl⟩
  · exact absurd h0 hd
  · split
    · exact ⟨h0, .inl rfl⟩
    · rcases hb : x o { s.tick with depth := 1 } with ⟨r, u⟩
      cases r with
      | ok a => exact ⟨rfl, .inr (hx _ o { s.tick with depth := 1 } rfl a u hb)⟩
      | error e' => exact ⟨rfl, .inl rfl⟩

lemma commits_bind_reads {x : Script ε σ α} {f : α → Script ε σ β} {P : α → σ → Prop}
    (hx : Reads x) (hP : ∀ s, Ensures x (fun a _ => P a s) s)
    (hf : ∀ a, Commits (f a) fun s t => P a s → R s t) : Commits (x >>= f) R := by
  intro o s h0
  change (Script.bind x f o s).2.depth = 0 ∧
    ((Script.bind x f o s).2.store = s.store ∨ R s.store (Script.bind x f o s).2.store)
  obtain ⟨hstore, hdepth⟩ := hx o s
  simp only [Script.bind]
  rcases hr : x o s with ⟨r, t⟩
  rw [hr] at hstore hdepth
  cases r with
  | ok a =>
    rw [← hstore]
    obtain ⟨hclosed, hmove⟩ := hf a o t (hdepth.trans h0)
    exact ⟨hclosed, hmove.imp_right fun hmove => hmove (hstore ▸ hP _ o s rfl a t hr)⟩
  | error e => exact ⟨hdepth.trans h0, .inl hstore⟩

lemma commits_bind_left {x : Script ε σ α} {f : α → Script ε σ β} (hx : Reads x)
    (hf : ∀ a, Commits (f a) R) : Commits (x >>= f) R :=
  commits_bind_reads hx (fun _ _ _ _ _ _ _ => trivial) fun a =>
    (hf a).mono fun _ _ h (_ : True) => h

lemma commits_bind_lift {x : Except ε α} {f : α → Script ε σ β}
    (hf : ∀ a, x = .ok a → Commits (f a) R) : Commits (lift x >>= f) R := by
  cases hx : x with
  | ok a => exact fun o s h0 => hf a hx o s h0
  | error e => exact fun o s h0 => ⟨h0, .inl rfl⟩

lemma commits_bind_right {x : Script ε σ α} {f : α → Script ε σ β} (hx : Commits x R)
    (hf : ∀ a, Reads (f a)) : Commits (x >>= f) R := by
  intro o s h0
  change (Script.bind x f o s).2.depth = 0 ∧
    ((Script.bind x f o s).2.store = s.store ∨ R s.store (Script.bind x f o s).2.store)
  have hx' := hx o s h0
  simp only [Script.bind]
  rcases hr : x o s with ⟨r, t⟩
  rw [hr] at hx'
  cases r with
  | ok a =>
    obtain ⟨hstore, hdepth⟩ := hf a o t
    exact ⟨hdepth.trans hx'.1, by simpa only [hstore] using hx'.2⟩
  | error e => exact hx'

end Commits

end Script
