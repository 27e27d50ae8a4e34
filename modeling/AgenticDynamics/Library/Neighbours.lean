import Mathlib.Tactic

/-!
# Neighbours in a list

Which elements of a list stand right behind which, in a chain of related elements, and which
element has a key where no two have the same.
-/

namespace Neighbours

variable {α : Type} {l : List α} {a b x y : α}

/-- `b` stands right behind `a`. -/
def Follows (l : List α) (a b : α) : Prop := ∃ pre post, l = pre ++ a :: b :: post

lemma Follows.mem (h : Follows l a b) : a ∈ l ∧ b ∈ l := by
  obtain ⟨pre, post, rfl⟩ := h
  simp

lemma Follows.append (h : Follows l a b) (more : List α) : Follows (l ++ more) a b := by
  obtain ⟨pre, post, rfl⟩ := h
  exact ⟨pre, post ++ more, by simp⟩

lemma follows_concat : Follows (l ++ [x]) a b ↔ Follows l a b ∨ (l.getLast? = some a ∧ b = x) := by
  constructor
  · rintro ⟨pre, post, h⟩
    cases post using List.reverseRecOn with
    | nil =>
      have hsplit : l ++ [x] = (pre ++ [a]) ++ [b] := by simpa using h
      obtain ⟨hl, hx⟩ := List.append_inj' hsplit rfl
      exact .inr ⟨by simp [hl], by simpa using hx.symm⟩
    | append_singleton post y =>
      have hsplit : l ++ [x] = (pre ++ a :: b :: post) ++ [y] := by simpa using h
      exact .inl ⟨pre, post, (List.append_inj' hsplit rfl).1⟩
  · rintro (h | ⟨hlast, rfl⟩)
    · exact h.append [x]
    · obtain ⟨pre, rfl⟩ := List.getLast?_eq_some_iff.mp hlast
      exact ⟨pre, [], by simp⟩

lemma follows_or_last (hx : x ∈ l) : (∃ y, Follows l x y) ∨ l.getLast? = some x := by
  obtain ⟨pre, post, rfl⟩ := List.append_of_mem hx
  cases post with
  | nil => exact .inr (by simp)
  | cons y post => exact .inl ⟨y, pre, post, rfl⟩

lemma Follows.not_last (h : Follows l a b) (hnodup : l.Nodup) : l.getLast? ≠ some a := by
  obtain ⟨pre, post, rfl⟩ := h
  intro hlast
  have hmem : a ∈ b :: post := by
    refine List.mem_of_getLast? (l := b :: post) ?_
    simpa using hlast
  have hnodup' := (List.nodup_append.mp hnodup).2.1
  exact (List.nodup_cons.mp hnodup').1 hmem

lemma follows_cons : Follows (x :: l) a b ↔ (x = a ∧ l.head? = some b) ∨ Follows l a b := by
  constructor
  · rintro ⟨pre, post, h⟩
    cases pre with
    | nil =>
      obtain ⟨rfl, rfl⟩ := List.cons.inj h
      exact .inl ⟨rfl, rfl⟩
    | cons z pre =>
      obtain ⟨rfl, rfl⟩ := List.cons.inj h
      exact .inr ⟨pre, post, rfl⟩
  · rintro (⟨rfl, hhead⟩ | ⟨pre, post, rfl⟩)
    · obtain ⟨post, rfl⟩ := List.head?_eq_some_iff.mp hhead
      exact ⟨[], post, rfl⟩
    · exact ⟨x :: pre, post, rfl⟩

lemma Follows.rel {R : α → α → Prop} (h : Follows l a b) (hchain : l.IsChain R) : R a b := by
  obtain ⟨pre, post, rfl⟩ := h
  exact (List.isChain_cons_cons.mp (List.isChain_append.mp hchain).2.1).1

lemma follows_of_isChain {R : α → α → Prop} (hchain : (a :: l).IsChain R) (hx : x ∈ l) :
    ∃ y, Follows (a :: l) y x := by
  induction l generalizing a with
  | nil => exact absurd hx (by simp)
  | cons c l ih =>
    rcases List.mem_cons.mp hx with rfl | hx
    · exact ⟨a, [], l, rfl⟩
    · obtain ⟨y, hy⟩ := ih (List.isChain_cons_cons.mp hchain).2 hx
      exact ⟨y, follows_cons.mpr (.inr hy)⟩

lemma Follows.unique (h : Follows l a b) (h' : Follows l a y) (hnodup : l.Nodup) : b = y := by
  induction l with
  | nil => exact absurd h.mem.1 (by simp)
  | cons c l ih =>
    obtain ⟨hc, hnodup⟩ := List.nodup_cons.mp hnodup
    rcases follows_cons.mp h with ⟨rfl, hb⟩ | h
    · rcases follows_cons.mp h' with ⟨-, hy⟩ | h'
      · exact Option.some.inj (hb.symm.trans hy)
      · exact absurd h'.mem.1 hc
    · rcases follows_cons.mp h' with ⟨rfl, -⟩ | h'
      · exact absurd h.mem.1 hc
      · exact ih h h' hnodup

lemma filter_key_eq {β : Type} [DecidableEq β] {g : α → β} (hnodup : (l.map g).Nodup)
    (hx : x ∈ l) : (l.filter fun y => g y = g x) = [x] := by
  obtain ⟨pre, post, rfl⟩ := List.append_of_mem hx
  have hkeys : ∀ y, y ∈ pre ∨ y ∈ post → g y ≠ g x := by
    intro y hy heq
    have hperm : (pre ++ x :: post).Perm (x :: (pre ++ post)) := List.perm_middle
    have hcons := (hperm.map g).nodup_iff.mp hnodup
    rw [List.map_cons, List.nodup_cons] at hcons
    exact hcons.1 (List.mem_map.mpr ⟨y, List.mem_append.mpr hy, heq⟩)
  rw [List.filter_append, List.filter_cons_of_pos (by simp),
    List.filter_eq_nil_iff.mpr fun y hy => by simpa using hkeys y (.inl hy),
    List.filter_eq_nil_iff.mpr fun y hy => by simpa using hkeys y (.inr hy)]
  rfl

end Neighbours
