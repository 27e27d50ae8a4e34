import Mathlib.Tactic

/-!
# Joined words

Words are joined with one letter between them. Which words were joined can be read off the text
exactly if the letter stands in none of them; and a part of the text without that letter is a part
of one of the words.
-/

namespace Joined

variable {α : Type} {c : α} {l s : List α} {ls ls' : List (List α)}

lemma cut_eq_cut_iff {x y x' y' : List α} : x' ++ c :: y' = x ++ c :: y ↔
    x' = x ∧ y' = y ∨ (∃ r, x = x' ++ c :: r ∧ y' = r ++ c :: y) ∨
      ∃ r, x' = x ++ c :: r ∧ y = r ++ c :: y' := by
  constructor
  · intro h
    rcases List.append_eq_append_iff.mp h with ⟨rest, hx, hy⟩ | ⟨rest, hx, hy⟩
    · cases rest with
      | nil => exact .inl ⟨by simpa using hx.symm, by simpa using hy⟩
      | cons a r =>
        obtain ⟨rfl, hr⟩ := List.cons.inj hy
        exact .inr (.inl ⟨r, hx, hr⟩)
    · cases rest with
      | nil => exact .inl ⟨by simpa using hx, by simpa using hy.symm⟩
      | cons a r =>
        obtain ⟨rfl, hr⟩ := List.cons.inj hy
        exact .inr (.inr ⟨r, hx, hr⟩)
  · rintro (⟨rfl, rfl⟩ | ⟨r, rfl, rfl⟩ | ⟨r, rfl, rfl⟩) <;> simp

/-! ### Parts of a joined text -/

lemma infix_intercalate_of_mem (hl : l ∈ ls) : l <:+: [c].intercalate ls := by
  induction ls with
  | nil => cases hl
  | cons first rest ih =>
    cases rest with
    | nil =>
      obtain rfl : l = first := by simpa using hl
      simp
    | cons second rest =>
      rw [List.intercalate_cons_cons]
      rcases List.mem_cons.mp hl with rfl | htail
      · exact ⟨[], [c] ++ [c].intercalate (second :: rest), by simp⟩
      · exact (ih htail).trans (List.suffix_append _ _).isInfix

lemma infix_append_cons_iff {x y : List α} (hc : c ∉ s) :
    s <:+: x ++ c :: y ↔ s <:+: x ∨ s <:+: y := by
  constructor
  · rintro ⟨before, after, h⟩
    rw [List.append_assoc] at h
    rcases List.append_eq_append_iff.mp h with ⟨rest, hx, hs⟩ | ⟨rest, hx, hy⟩
    · rcases List.append_eq_append_iff.mp hs with ⟨rest', hrest, -⟩ | ⟨rest', hs', hy⟩
      · left
        exact ⟨before, rest', by rw [hx, hrest, List.append_assoc]⟩
      · cases rest' with
        | nil =>
          left
          exact ⟨before, [], by rw [hx, hs', List.append_nil, List.append_nil]⟩
        | cons a r =>
          obtain ⟨rfl, -⟩ := List.cons.inj hy
          exact absurd (hs' ▸ by simp) hc
    · cases rest with
      | nil =>
        cases s with
        | nil => exact .inl (List.nil_infix)
        | cons a s =>
          obtain ⟨rfl, -⟩ := List.cons.inj hy
          exact absurd List.mem_cons_self hc
      | cons a r =>
        obtain ⟨-, hy⟩ := List.cons.inj hy
        right
        exact ⟨r, after, by rw [hy]; simp⟩
  · rintro (h | h)
    · exact h.trans (List.prefix_append _ _).isInfix
    · exact h.trans ((List.suffix_cons c y).trans (List.suffix_append _ _)).isInfix

theorem infix_intercalate_iff (hs : s ≠ []) (hc : c ∉ s) :
    s <:+: [c].intercalate ls ↔ ∃ l ∈ ls, s <:+: l := by
  constructor
  · intro h
    induction ls with
    | nil => exact absurd (List.infix_nil.mp h) hs
    | cons first rest ih =>
      cases rest with
      | nil => exact ⟨first, List.mem_cons_self, by simpa using h⟩
      | cons second rest =>
        rw [List.intercalate_cons_cons, List.append_assoc, List.singleton_append,
          infix_append_cons_iff hc] at h
        rcases h with h | h
        · exact ⟨first, List.mem_cons_self, h⟩
        · obtain ⟨l, hl, hin⟩ := ih h
          exact ⟨l, List.mem_cons_of_mem _ hl, hin⟩
  · rintro ⟨l, hl, hin⟩
    exact hin.trans (infix_intercalate_of_mem hl)

/-! ### Reading the words off -/

section Reading

variable [DecidableEq α]

lemma count_intercalate (hne : ls ≠ []) :
    ([c].intercalate ls).count c + 1 = ls.length + (ls.map (List.count c)).sum := by
  induction ls with
  | nil => exact absurd rfl hne
  | cons first rest ih =>
    cases rest with
    | nil => simp [Nat.add_comm]
    | cons second rest =>
      have hrest := ih (List.cons_ne_nil _ _)
      rw [List.intercalate_cons_cons, List.count_append, List.count_append,
        List.count_singleton_self, List.map_cons, List.sum_cons, List.length_cons]
      omega

lemma free_iff_sum : (∀ l ∈ ls, c ∉ l) ↔ (ls.map (List.count c)).sum = 0 := by
  simp [List.sum_eq_zero_iff, List.count_eq_zero]

/-- Words without the letter are the only ones, of their number, that are joined to their text. -/
theorem eq_of_intercalate_eq (hfree : ∀ l ∈ ls, c ∉ l) (hlength : ls'.length = ls.length)
    (h : [c].intercalate ls' = [c].intercalate ls) : ls' = ls := by
  cases hls : ls with
  | nil => exact List.length_eq_zero_iff.mp (by rw [hlength, hls]; rfl)
  | cons first rest =>
    have hne : ls ≠ [] := by rw [hls]; exact List.cons_ne_nil _ _
    have hne' : ls' ≠ [] := by
      rintro rfl
      exact hne (List.length_eq_zero_iff.mp hlength.symm)
    have hfree' : ∀ l ∈ ls', c ∉ l := by
      rw [free_iff_sum] at hfree ⊢
      have hcount := count_intercalate (c := c) hne
      have hcount' := count_intercalate (c := c) hne'
      rw [h] at hcount'
      omega
    rw [← hls, ← List.splitOn_intercalate c hfree hne, ← h, List.splitOn_intercalate c hfree' hne']

lemma exists_intercalate_eq (htwo : 2 ≤ ls.length) (hl : l ∈ ls) (hc : c ∈ l) :
    ∃ ls', ls'.length = ls.length ∧ [c].intercalate ls' = [c].intercalate ls ∧ ls' ≠ ls := by
  induction ls with
  | nil => cases hl
  | cons first rest ih =>
    cases rest with
    | nil => simp at htwo
    | cons second rest =>
      by_cases hfirst : c ∈ first
      · obtain ⟨x, y, rfl⟩ := List.append_of_mem hfirst
        refine ⟨x :: (y ++ c :: second) :: rest, by simp, ?_, by simp⟩
        cases rest <;> simp [List.intercalate_cons_cons]
      · have htail : l ∈ second :: rest := by
          rcases List.mem_cons.mp hl with rfl | htail
          · exact absurd hc hfirst
          · exact htail
        cases rest with
        | nil =>
          obtain rfl : l = second := by simpa using htail
          obtain ⟨x, y, rfl⟩ := List.append_of_mem hc
          exact ⟨[first ++ c :: x, y], by simp, by simp [List.intercalate_cons_cons], by simp⟩
        | cons third rest =>
          obtain ⟨ls', hlength, hjoined, hne⟩ := ih (by simp) htail
          obtain ⟨second', rest', rfl⟩ := List.exists_cons_of_length_eq_add_one hlength
          refine ⟨first :: second' :: rest', by simpa using hlength, ?_, by simpa using hne⟩
          rw [List.intercalate_cons_cons, hjoined, ← List.intercalate_cons_cons]

/-- Two words or more are the only ones, of their number, that are joined to their text, exactly if
the letter stands in none of them. -/
theorem alone_iff (htwo : 2 ≤ ls.length) :
    (∀ ls', ls'.length = ls.length → [c].intercalate ls' = [c].intercalate ls → ls' = ls) ↔
      ∀ l ∈ ls, c ∉ l := by
  constructor
  · intro halone l hl hc
    obtain ⟨ls', hlength, hjoined, hne⟩ := exists_intercalate_eq htwo hl hc
    exact hne (halone ls' hlength hjoined)
  · intro hfree ls' hlength h
    exact eq_of_intercalate_eq hfree hlength h

end Reading

end Joined
