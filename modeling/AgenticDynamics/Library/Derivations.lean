import Mathlib.Tactic
import Mathlib.Data.Fintype.Card
import Mathlib.Order.WellFounded

/-!
# Derivations from evidence

A value is derived if it is evidence, or if some step yields it from premises that are derived. What
cannot be derived lies in a trap: a set without evidence in which every step to a member has a
premise in the set. A set that supports itself may still be a trap, when its steps run in a cycle.
-/

namespace Derivations

variable {α : Type} (evidence : α → Prop) (step : List α → α → Prop)

inductive Derivable : α → Prop
  | evidence {a : α} (h : evidence a) : Derivable a
  | step {premises : List α} {a : α} (h : step premises a) (hall : ∀ b ∈ premises, Derivable b) :
      Derivable a

structure Trap (T : α → Prop) : Prop where
  outside : ∀ a, T a → ¬ evidence a
  stuck : ∀ a premises, T a → step premises a → ∃ b ∈ premises, T b

/-- Every member is evidence, or some step yields it from members. -/
def Supported (S : α → Prop) : Prop :=
  ∀ a, S a → evidence a ∨ ∃ premises, step premises a ∧ ∀ b ∈ premises, S b

section Rules

variable {evidence step} {a : α}

theorem derivable_iff : Derivable evidence step a ↔ ∀ T, Trap evidence step T → ¬ T a := by
  constructor
  · intro h T htrap
    induction h with
    | evidence h => exact fun hT => htrap.outside _ hT h
    | step h _ ih =>
      intro hT
      obtain ⟨b, hb, hTb⟩ := htrap.stuck _ _ hT h
      exact ih b hb hTb
  · intro h
    by_contra hnot
    refine h (fun b => ¬ Derivable evidence step b) ⟨?_, ?_⟩ hnot
    · intro b hb hevidence
      exact hb (.evidence hevidence)
    · intro b premises hb hstep
      by_contra hall
      push Not at hall
      exact hb (.step hstep hall)

end Rules

lemma wellFounded_of_acyclic {β : Type} [Finite β] {r : β → β → Prop}
    (hacyclic : ∀ b, ¬ Relation.TransGen r b b) : WellFounded r := by
  have : Std.Irrefl (Relation.TransGen r) := ⟨hacyclic⟩
  have hwf : WellFounded (Relation.TransGen r) := Finite.wellFounded_of_trans_of_irrefl _
  exact Subrelation.wf (fun h => Relation.TransGen.single h) hwf

end Derivations
