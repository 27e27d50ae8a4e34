import Mathlib.Tactic

/-!
# Runs and the logs they leave

A run takes its steps one after another. What holds in all of its states, and what all of its
steps meet, are two ways to speak about it; they agree when a step goes wrong exactly where it
does not meet the condition. A log in which every entry answers for what stands before it stays
such a log when an entry is appended that does.
-/

namespace Runs

variable {σ ι α : Type} {step : σ → ι → σ} {C : σ → ι → Prop} {P Inv : σ → Prop} {s : σ}

/-! ### Runs -/

/-- Every step meets the condition in the state it is taken in. -/
def Along (step : σ → ι → σ) (C : σ → ι → Prop) : σ → List ι → Prop
  | _, []      => True
  | s, i :: is => C s i ∧ Along step C (step s i) is

/-- The property holds in every state of the run. -/
def Throughout (step : σ → ι → σ) (P : σ → Prop) (s : σ) (is : List ι) : Prop :=
  ∀ before, before <+: is → P (before.foldl step s)

lemma throughout_nil : Throughout step P s [] ↔ P s := by
  constructor
  · intro h
    exact h [] (List.prefix_refl [])
  · intro h before hbefore
    rw [List.prefix_nil.mp hbefore]
    exact h

lemma throughout_cons {i : ι} {is : List ι} :
    Throughout step P s (i :: is) ↔ P s ∧ Throughout step P (step s i) is := by
  constructor
  · intro h
    refine ⟨h [] List.nil_prefix, fun before hbefore => ?_⟩
    exact h (i :: before) ((List.prefix_cons_inj i).mpr hbefore)
  · rintro ⟨hs, h⟩ before hbefore
    cases before with
    | nil => exact hs
    | cons j before =>
      obtain ⟨rfl, hrest⟩ := List.cons_prefix_cons.mp hbefore
      exact h before hrest

lemma Along.of_prefix {before is : List ι} (h : Along step C s is) (hbefore : before <+: is) :
    Along step C s before := by
  induction before generalizing s is with
  | nil => trivial
  | cons i before ih =>
    obtain ⟨after, rfl⟩ := hbefore
    exact ⟨h.1, ih h.2 (List.prefix_append before after)⟩

lemma Along.preserves {is : List ι} (h : Along step C s is)
    (hstep : ∀ s i, P s → C s i → P (step s i)) (hs : P s) : P (is.foldl step s) := by
  induction is generalizing s with
  | nil => exact hs
  | cons i is ih => exact ih h.2 (hstep s i hs h.1)

lemma Along.imp {D : σ → ι → Prop} {is : List ι} (h : Along step C s is)
    (hinv : ∀ s i, Inv s → C s i → Inv (step s i)) (himp : ∀ s i, Inv s → C s i → D s i)
    (hs : Inv s) : Along step D s is := by
  induction is generalizing s with
  | nil => trivial
  | cons i is ih => exact ⟨himp s i hs h.1, ih h.2 (hinv s i hs h.1)⟩

/-- An invariant of all steps, and a property that a step from a state that has it keeps exactly
when it meets the condition. -/
lemma throughout_iff_along {is : List ι} (hinv : ∀ s i, Inv s → Inv (step s i))
    (hstep : ∀ s i, Inv s → P s → (P (step s i) ↔ C s i)) (hs : Inv s) (hP : P s) :
    Throughout step P s is ↔ Along step C s is := by
  induction is generalizing s with
  | nil => exact iff_of_true (throughout_nil.mpr hP) trivial
  | cons i is ih =>
    rw [throughout_cons, Along]
    constructor
    · rintro ⟨-, h⟩
      have hnext : P (step s i) := h [] List.nil_prefix
      exact ⟨(hstep s i hs hP).mp hnext, (ih (hinv s i hs) hnext).mp h⟩
    · rintro ⟨hC, h⟩
      have hnext : P (step s i) := (hstep s i hs hP).mpr hC
      exact ⟨hP, (ih (hinv s i hs) hnext).mpr h⟩

/-- A condition on the steps, read off a run that keeps more: where the two agree under an invariant
of all steps, they agree along the run. -/
lemma along_iff_along {τ : Type} {step' : τ → ι → τ} {C' : τ → ι → Prop} {Inv : τ → Prop}
    (forget : τ → σ) (hforget : ∀ t i, forget (step' t i) = step (forget t) i)
    (hinv : ∀ t i, Inv t → Inv (step' t i)) (hiff : ∀ t i, Inv t → (C (forget t) i ↔ C' t i))
    {t : τ} (ht : Inv t) (is : List ι) :
    Along step C (forget t) is ↔ Along step' C' t is := by
  induction is generalizing t with
  | nil => exact Iff.rfl
  | cons i is ih =>
    rw [Along, Along, hiff t i ht, ← hforget, ih (hinv t i ht)]

/-! ### Logs -/

variable {J : List α → α → Prop} {log : List α}

/-- Every entry stands in the relation to the entries before it. -/
def Justified (J : List α → α → Prop) (log : List α) : Prop :=
  ∀ before e after, log = before ++ e :: after → J before e

lemma justified_nil : Justified J [] := by
  intro before e after h
  cases before <;> cases h

lemma justified_concat {e : α} : Justified J (log ++ [e]) ↔ Justified J log ∧ J log e := by
  constructor
  · intro h
    refine ⟨fun before e' after hlog => ?_, h log e [] rfl⟩
    exact h before e' (after ++ [e]) (by simp [hlog])
  · rintro ⟨hlog, he⟩ before e' after h
    rcases List.eq_nil_or_concat after with rfl | ⟨after', last, rfl⟩
    · obtain ⟨rfl, heq⟩ := List.append_inj' h rfl
      cases heq
      exact he
    · have hsplit : log ++ [e] = (before ++ e' :: after') ++ [last] := by simpa using h
      exact hlog before e' after' (List.append_inj_left' hsplit rfl)

end Runs
