import Mathlib.Tactic
import Mathlib.Logic.Relation
import Mathlib.Data.List.Chain

/-!
# Audit ledgers of a state machine

An object moves through states under a relation `allowed`, and each move is appended to a
ledger as a pair of the state left and the state entered. The first entry has no state left.
`Ledger` says that a list of rows is such a history and which state it ends in; what every
history looks like follows by induction on it.
-/

variable {S : Type}

/-- `Ledger initial allowed rows s`: the rows record a life that ends in `s`. -/
inductive Ledger (initial : S → Prop) (allowed : S → S → Prop) : List (Option S × S) → S → Prop
  | created {s : S} (h : initial s) : Ledger initial allowed [(none, s)] s
  | moved {rows : List (Option S × S)} {s t : S} (hl : Ledger initial allowed rows s)
      (h : allowed s t) : Ledger initial allowed (rows ++ [(some s, t)]) t

namespace Ledger

variable {initial : S → Prop} {allowed : S → S → Prop} {rows : List (Option S × S)} {s t : S}

lemma getLast (h : Ledger initial allowed rows s) : rows.getLast?.map Prod.snd = some s := by
  cases h <;> simp

lemma head (h : Ledger initial allowed rows s) :
    ∃ s₀, rows.head? = some (none, s₀) ∧ initial s₀ := by
  induction h with
  | created h => exact ⟨_, rfl, h⟩
  | moved hl h ih =>
    obtain ⟨s₀, hhead, h₀⟩ := ih
    exact ⟨s₀, by simp [hhead], h₀⟩

lemma isChain (h : Ledger initial allowed rows s) : rows.IsChain fun a b => b.1 = some a.2 := by
  induction h with
  | created h => exact List.isChain_singleton _
  | @moved rows s t hl h ih =>
    refine List.isChain_append.mpr ⟨ih, List.isChain_singleton _, ?_⟩
    intro a ha b hb
    have hlast := hl.getLast
    simp only [Option.mem_def] at ha
    simp only [ha, Option.map_some, Option.some.injEq] at hlast
    simp only [List.head?_cons, Option.mem_def, Option.some.injEq] at hb
    rw [← hb, hlast]

lemma edges (h : Ledger initial allowed rows s) :
    ∀ r ∈ rows, ∀ f, r.1 = some f → allowed f r.2 := by
  induction h with
  | created h => simp
  | moved hl h ih =>
    intro r hr f hf
    rcases List.mem_append.mp hr with hr | hr
    · exact ih r hr f hf
    · simp only [List.mem_singleton] at hr
      subst hr
      cases hf
      exact h

lemma reaches (h : Ledger initial allowed rows s) :
    ∀ r ∈ rows, Relation.ReflTransGen allowed r.2 s := by
  induction h with
  | created h =>
    intro r hr
    rw [List.mem_singleton.mp hr]
  | moved hl h ih =>
    intro r hr
    rcases List.mem_append.mp hr with hr | hr
    · exact (ih r hr).tail h
    · rw [List.mem_singleton.mp hr]

lemma pairwise_reaches (h : Ledger initial allowed rows s) :
    rows.Pairwise fun a b => Relation.TransGen allowed a.2 b.2 := by
  induction h with
  | created h => exact List.pairwise_singleton _ _
  | moved hl h ih =>
    refine List.pairwise_append.mpr ⟨ih, List.pairwise_singleton _ _, ?_⟩
    intro a ha b hb
    rw [List.mem_singleton.mp hb]
    exact Relation.TransGen.tail' (hl.reaches a ha) h

lemma pairwise_of_stuck (h : Ledger initial allowed rows s) {stuck : S → Prop}
    (hstuck : ∀ a b, allowed a b → ¬ stuck a) : rows.Pairwise fun a _ => ¬ stuck a.2 := by
  refine h.pairwise_reaches.imp ?_
  intro a b hab
  obtain ⟨c, hac, -⟩ := Relation.TransGen.head'_iff.mp hab
  exact hstuck _ _ hac

lemma pairwise_of_closed (h : Ledger initial allowed rows s) {K : S → Prop}
    (hK : ∀ a b, K a → allowed a b → K b) : rows.Pairwise fun a b => K a.2 → K b.2 := by
  refine h.pairwise_reaches.imp ?_
  intro a b hab ha
  generalize b.2 = t at hab ⊢
  induction hab with
  | single h => exact hK _ _ ha h
  | tail _ h ih => exact hK _ _ ih h

lemma of_unique_pred {p : S} (h : Ledger initial allowed rows t)
    (hpred : ∀ a, allowed a t → a = p) (hinit : ¬ initial t) :
    ∃ rows', rows = rows' ++ [(some p, t)] ∧ Ledger initial allowed rows' p := by
  cases h with
  | created h => exact absurd h hinit
  | @moved rows s _ hl h =>
    have hp := hpred s h
    subst hp
    exact ⟨rows, rfl, hl⟩

end Ledger
