import AgenticDynamics.Library.Script

/-!
# Metered scripts

A meter is a number read off the store. A script adds `n` to it if a run that returns has moved
the meter by `n`, and a run that raises has not moved it, unless the environment made a statement
fail. Transactions keep that, whether they are outermost or join another one.
-/

/-- The connection, seen as one to another store. -/
def Session.withStore {σ τ : Type} (s : Session σ) (store : τ) : Session τ :=
  ⟨store, s.depth, s.readOnly, s.ticks⟩

namespace Script

variable {ε σ τ α β : Type} {meter : σ → ℕ} {n : ℕ}

/-- The environment made some statement fail with the error. -/
def Faulted (o : Oracle ε) (e : ε) : Prop := ∃ k, o.fault k = some e

/-- What the script does to the meter, at any depth. -/
def Adds (meter : σ → ℕ) (n : ℕ) (x : Script ε σ α) : Prop :=
  ∀ o s, Ends x o s (fun _ t => t.depth = s.depth ∧ meter t.store = meter s.store + n)
    (fun e t => t.depth = s.depth ∧ (Faulted o e ∨ meter t.store = meter s.store))

lemma Reads.adds {x : Script ε σ α} (h : Reads x) : Adds meter 0 x := by
  intro o s
  obtain ⟨hstore, hdepth⟩ := h o s
  refine ends_of_run (fun a t hx => ?_) fun e t hx => ?_
  · rw [hx] at hstore hdepth
    exact ⟨hdepth, congrArg meter hstore⟩
  · rw [hx] at hstore hdepth
    exact ⟨hdepth, .inr (congrArg meter hstore)⟩

lemma adds_raise (e : ε) : Adds meter n (raise e : Script ε σ α) :=
  fun _ _ => ends_raise.mpr ⟨rfl, .inr rfl⟩

lemma adds_execute {f : σ → Except ε σ} (h : ∀ s t, f s = .ok t → meter t = meter s + n) :
    Adds meter n (execute f) := by
  intro o s
  refine ends_execute_result (fun t ht => ?_) (fun e _ => ?_) fun e he => ?_
  · exact ⟨rfl, h s.store t ht⟩
  · exact ⟨rfl, .inr rfl⟩
  · exact ⟨rfl, .inl ⟨s.ticks, he⟩⟩

lemma Adds.bind_left {x : Script ε σ α} {f : α → Script ε σ β} (hx : Adds meter 0 x)
    (hf : ∀ a, Adds meter n (f a)) : Adds meter n (x >>= f) := by
  intro o s
  rw [ends_bind]
  refine (hx o s).mono (fun a t ht => ?_) fun e t ht => ht
  obtain ⟨hdepth, hmeter⟩ := ht
  rw [Nat.add_zero] at hmeter
  refine (hf a o t).mono (fun b u hu => ?_) fun e u hu => ?_
  · exact ⟨hu.1.trans hdepth, by rw [hu.2, hmeter]⟩
  · exact ⟨hu.1.trans hdepth, hu.2.imp_right fun hsame => hsame.trans hmeter⟩

lemma Adds.bind_right {x : Script ε σ α} {f : α → Script ε σ β} {P : α → σ → Prop}
    (hx : Adds meter n x) (hP : ∀ s, Ensures x P s)
    (hf : ∀ a o s, P a s.store → Ends (f a) o s
      (fun _ t => t.depth = s.depth ∧ meter t.store = meter s.store)
      (fun e t => t.depth = s.depth ∧ Faulted o e)) : Adds meter n (x >>= f) := by
  intro o s
  refine ends_bind_run (fun a t hrun => ?_) fun e t hrun => (hx o s).of_error hrun
  obtain ⟨hdepth, hmeter⟩ := (hx o s).of_ok hrun
  refine (hf a o t (hP s.store o s rfl a t hrun)).mono (fun b u hu => ?_) fun e u hu => ?_
  · exact ⟨hu.1.trans hdepth, by rw [hu.2, hmeter]⟩
  · exact ⟨hu.1.trans hdepth, .inl hu.2⟩

lemma Adds.transaction {x : Script ε σ α} {e : ε} (hx : Adds meter n x) :
    Adds meter n (transaction e x) := by
  intro o s
  by_cases hdepth : s.depth = 0
  · refine ends_transaction hdepth (fun _ => ⟨rfl, .inr rfl⟩)
      (fun e' he' => ⟨rfl, .inl ⟨s.ticks, he'⟩⟩) fun _ => ?_
    refine (hx o _).mono (fun a t ht => ?_) fun e' t _ => ?_
    · exact ⟨hdepth.symm, ht.2⟩
    · exact ⟨hdepth.symm, .inr rfl⟩
  · refine ends_transaction_nested hdepth (fun _ => ⟨rfl, .inr rfl⟩) fun _ => ?_
    refine (hx o _).mono (fun a t ht => ?_) fun e' t ht => ?_
    · exact ⟨by simp [ht.1], ht.2⟩
    · exact ⟨by simp [ht.1], ht.2⟩

lemma Adds.ensures {x : Script ε σ α} (hx : Adds meter n x) (s : σ) :
    Ensures x (fun _ t => meter t = meter s + n) s := by
  rintro o c rfl a d hrun
  exact ((hx o c).of_ok hrun).2

/-! ### Methods -/

/-- A script that does all its writing in one transaction, which adds `n`: outside any other one
it adds `n` or leaves the store as it was. -/
def Moves (meter : σ → ℕ) (n : ℕ) (x : Script ε σ α) : Prop :=
  Adds meter n x ∧ Commits x fun s t => meter t = meter s + n

lemma Adds.moves {x : Script ε σ α} {e : ε} (hx : Adds meter n x) :
    Moves meter n (Script.transaction e x) := ⟨hx.transaction, commits_transaction hx.ensures⟩

lemma Reads.moves {x : Script ε σ α} (h : Reads x) : Moves meter 0 x := ⟨h.adds, h.commits⟩

lemma moves_raise (e : ε) : Moves meter n (raise e : Script ε σ α) :=
  ⟨adds_raise e, (reads_raise e).commits⟩

lemma Moves.bind_left {x : Script ε σ α} {f : α → Script ε σ β} (hx : Reads x)
    (hf : ∀ a, Moves meter n (f a)) : Moves meter n (x >>= f) :=
  ⟨hx.adds.bind_left fun a => (hf a).1, commits_bind_left hx fun a => (hf a).2⟩

lemma Moves.bind_right {x : Script ε σ α} {f : α → Script ε σ β} {P : α → σ → Prop}
    (hx : Moves meter n x) (hP : ∀ s, Ensures x P s) (hreads : ∀ a, Reads (f a))
    (hf : ∀ a o s, P a s.store → Ends (f a) o s
      (fun _ t => t.depth = s.depth ∧ meter t.store = meter s.store)
      (fun e t => t.depth = s.depth ∧ Faulted o e)) : Moves meter n (x >>= f) :=
  ⟨hx.1.bind_right hP hf, commits_bind_right hx.2 hreads⟩

lemma Moves.bind_reads {x : Script ε σ α} {f : α → Script ε σ β} (hx : Moves meter 0 x)
    (hf : ∀ a, Reads (f a)) : Moves meter 0 (x >>= f) :=
  ⟨hx.1.bind_left fun a => (hf a).adds, commits_bind_right hx.2 hf⟩

lemma Moves.discard {x : Script ε σ α} (hx : Moves meter n x) :
    Moves meter n (x >>= fun _ => pure ()) :=
  hx.bind_right (P := fun _ _ => True) (fun _ _ _ _ _ _ _ => trivial) (fun _ => reads_pure _)
    fun _ _ _ _ => ends_pure.mpr ⟨rfl, rfl⟩

/-- The meter stays where it is in every run. -/
def Retains (meter : σ → ℕ) (x : Script ε σ α) : Prop :=
  ∀ o s, meter (x o s).2.store = meter s.store

lemma Retains.bind {x : Script ε σ α} {f : α → Script ε σ β} (hx : Retains meter x)
    (hf : ∀ a, Retains meter (f a)) : Retains meter (x >>= f) := by
  intro o s
  have hfirst := hx o s
  rcases hrun : x o s with ⟨r, t⟩
  rw [hrun] at hfirst
  cases r with
  | ok a =>
    rw [run_bind_ok hrun]
    exact (hf a o t).trans hfirst
  | error e =>
    rw [run_bind_error hrun]
    exact hfirst

lemma Retains.transaction {x : Script ε σ α} {e : ε} (hx : Retains meter x) :
    Retains meter (transaction e x) := by
  intro o s
  simp only [Script.transaction]
  split_ifs with _ hdepth
  · rfl
  · exact hx o _
  · split
    · rfl
    · have hbody := hx o { s.tick with depth := 1 }
      rcases hrun : x o { s.tick with depth := 1 } with ⟨r, t⟩
      rw [hrun] at hbody
      cases r with
      | ok a => exact hbody
      | error e => rfl

lemma Retains.caught {δ : Type} {catches : ε → Option δ} {x : Script ε σ α} (hx : Retains meter x) :
    Retains meter (caught catches x) := by
  intro o s
  have hbody := hx o s
  simp only [Script.caught]
  rcases hrun : x o s with ⟨r, t⟩
  rw [hrun] at hbody
  cases r with
  | ok a => exact hbody
  | error e => cases hc : catches e <;> simpa only [hc] using hbody

lemma Reads.keeps {x : Script ε σ α} (h : Reads x) : Retains meter x :=
  fun o s => congrArg meter (h o s).1

/-! ### Parts of a store -/

def focus (get : τ → σ) (put : σ → τ → τ) (x : Script ε σ α) : Script ε τ α := fun o s =>
  let (r, t) := x o (s.withStore (get s.store))
  (r, t.withStore (put t.store s.store))

section Focus

variable {get : τ → σ} {put : σ → τ → τ} {whole : τ → ℕ} {o : Oracle ε} {s : Session τ}

lemma ends_focus {x : Script ε σ α} {Q : α → Session τ → Prop} {E : ε → Session τ → Prop}
    (h : Ends x o (s.withStore (get s.store)) (fun a t => Q a (t.withStore (put t.store s.store)))
      (fun e t => E e (t.withStore (put t.store s.store)))) : Ends (focus get put x) o s Q E := by
  rcases hx : x o (s.withStore (get s.store)) with ⟨r, t⟩
  refine ends_of_run (fun a u hu => ?_) fun e u hu => ?_
  · simp only [focus, hx, Prod.mk.injEq] at hu
    obtain ⟨rfl, rfl⟩ := hu
    exact h.of_ok hx
  · simp only [focus, hx, Prod.mk.injEq] at hu
    obtain ⟨rfl, rfl⟩ := hu
    exact h.of_error hx

lemma Moves.focus {x : Script ε σ α} (hx : Moves meter n x) (hput : ∀ t, put (get t) t = t)
    (hwhole : ∀ part t, whole (put part t) + meter (get t) = whole t + meter part) :
    Moves whole n (focus get put x) := by
  constructor
  · intro o s
    refine ends_focus ((hx.1 o _).mono (fun a t ht => ?_) fun e t ht => ?_)
    · have hmeter : meter t.store = meter (get s.store) + n := ht.2
      have hboth := hwhole t.store s.store
      refine ⟨ht.1, ?_⟩
      show whole (put t.store s.store) = whole s.store + n
      omega
    · refine ⟨ht.1, ht.2.imp_right fun hsame => ?_⟩
      have hmeter : meter t.store = meter (get s.store) := hsame
      have hboth := hwhole t.store s.store
      show whole (put t.store s.store) = whole s.store
      omega
  · intro o s h0
    obtain ⟨hdepth, hatomic⟩ := hx.2 o (s.withStore (get s.store)) h0
    refine ⟨hdepth, hatomic.imp (fun hsame => ?_) fun hmoved => ?_⟩
    · show put (x o (s.withStore (get s.store))).2.store s.store = s.store
      rw [hsame]
      exact hput s.store
    · have hmeter : meter (x o (s.withStore (get s.store))).2.store = meter (get s.store) + n :=
        hmoved
      have hboth := hwhole (x o (s.withStore (get s.store))).2.store s.store
      show whole (put (x o (s.withStore (get s.store))).2.store s.store) = whole s.store + n
      omega

end Focus

lemma Retains.focus {get : τ → σ} {put : σ → τ → τ} {meter : τ → ℕ}
    (hput : ∀ part t, meter (put part t) = meter t) (x : Script ε σ α) :
    Retains meter (focus get put x) := fun o s =>
  hput (x o (s.withStore (get s.store))).2.store s.store

/-! ### Read-only connections -/

/-- On a read-only connection nothing is written. -/
def Inert (x : Script ε σ α) : Prop :=
  ∀ o s, s.readOnly = true → (x o s).2.store = s.store ∧ (x o s).2.readOnly = true

lemma inert_requireWritable (e : ε) (f : Unit → Script ε σ α) :
    Inert (requireWritable e >>= f) := by
  intro o s hro
  have hrun : requireWritable e o s = (.error e, s) := if_pos hro
  rw [run_bind_error hrun]
  exact ⟨rfl, hro⟩

lemma Inert.pure (a : α) : Inert (pure a : Script ε σ α) := fun _ _ hro => ⟨rfl, hro⟩

lemma inert_transaction (e : ε) (x : Script ε σ α) : Inert (transaction e x) := by
  intro o s hro
  rw [Script.transaction, if_pos hro]
  exact ⟨rfl, hro⟩

lemma Inert.bind {x : Script ε σ α} {f : α → Script ε σ β} (hx : Inert x)
    (hf : ∀ a, Inert (f a)) : Inert (x >>= f) := by
  intro o s hro
  obtain ⟨hstore, hro'⟩ := hx o s hro
  rcases hrun : x o s with ⟨r, t⟩
  rw [hrun] at hstore hro'
  cases r with
  | ok a =>
    rw [run_bind_ok hrun]
    obtain ⟨hstore', hro''⟩ := hf a o t hro'
    exact ⟨hstore'.trans hstore, hro''⟩
  | error e =>
    rw [run_bind_error hrun]
    exact ⟨hstore, hro'⟩

lemma Inert.caught {δ : Type} {catches : ε → Option δ} {x : Script ε σ α} (hx : Inert x) :
    Inert (caught catches x) := by
  intro o s hro
  have hbody := hx o s hro
  simp only [Script.caught]
  rcases hrun : x o s with ⟨r, t⟩
  rw [hrun] at hbody
  cases r with
  | ok a => exact hbody
  | error e => cases hc : catches e <;> simpa only [hc] using hbody

lemma Inert.focus {get : τ → σ} {put : σ → τ → τ} (hput : ∀ t, put (get t) t = t)
    {x : Script ε σ α} (hx : Inert x) : Inert (focus get put x) := by
  intro o s hro
  obtain ⟨hstore, hro'⟩ := hx o (s.withStore (get s.store)) hro
  refine ⟨?_, hro'⟩
  show put (x o (s.withStore (get s.store))).2.store s.store = s.store
  rw [hstore]
  exact hput s.store

end Script
