import Mathlib.Tactic

/-!
# Words that reversal moves

When a word stands before another one, and reversed behind it, and the two texts are the same: the
first word is made of two palindromes, and the second one repeats it.
-/

namespace Words

variable {α : Type} {p x r w : List α}

lemma append_flatten_replicate (l : List α) (k : ℕ) :
    l ++ (List.replicate k l).flatten = (List.replicate k l).flatten ++ l := by
  induction k with
  | zero => simp
  | succ k ih => rw [List.replicate_succ, List.flatten_cons, List.append_assoc, ← ih]

lemma append_reverse_of_palindromes (hp : p.reverse = p) (hx : x.reverse = x) (k : ℕ) :
    (p ++ x) ++ ((List.replicate k (p ++ x)).flatten ++ p) =
      ((List.replicate k (p ++ x)).flatten ++ p) ++ (p ++ x).reverse := by
  rw [List.reverse_append, hp, hx, ← List.append_assoc, append_flatten_replicate]
  simp only [List.append_assoc]

lemma palindromes_of_append_reverse (hr : r ≠ []) (h : r ++ w = w ++ r.reverse) :
    ∃ p x k, p.reverse = p ∧ x.reverse = x ∧ r = p ++ x ∧
      w = (List.replicate k r).flatten ++ p := by
  induction hn : w.length using Nat.strong_induction_on generalizing w with
  | _ n ih =>
    rcases List.append_eq_append_iff.mp h with ⟨rest, hw, hrest⟩ | ⟨rest, hsplit, hrev⟩
    · -- the second word begins with the first one
      have hlength : rest.length < n := by
        have hpos := List.length_pos_iff.mpr hr
        rw [← hn, hw, List.length_append]
        omega
      obtain ⟨p, x, k, hp, hx, hsplit, hpower⟩ := ih rest.length hlength (hw ▸ hrest) rfl
      refine ⟨p, x, k + 1, hp, hx, hsplit, ?_⟩
      rw [hw, hpower, List.replicate_succ, List.flatten_cons, List.append_assoc]
    · -- the first word begins with the second one
      rw [hsplit, List.reverse_append] at hrev
      obtain ⟨hx, hp⟩ := List.append_inj hrev (by simp)
      exact ⟨w, rest, 0, hp, hx, hsplit, by simp⟩

theorem append_eq_append_reverse_iff : r ++ w = w ++ r.reverse ↔ r = [] ∨
    ∃ p x k, p.reverse = p ∧ x.reverse = x ∧ r = p ++ x ∧
      w = (List.replicate k r).flatten ++ p := by
  constructor
  · intro h
    by_cases hr : r = []
    · exact .inl hr
    · exact .inr (palindromes_of_append_reverse hr h)
  · rintro (rfl | ⟨p, x, k, hp, hx, rfl, rfl⟩)
    · simp
    · exact append_reverse_of_palindromes hp hx k

end Words
