import Mathlib.Tactic
import Mathlib.Data.List.Pairwise

/-!
# Stable sorting by a key

Sorting a list by a key keeps the order of elements whose keys are equal. What a program reads
from the end of such a list is the latest element: of those with the greatest key the one that
came last.
-/

namespace StableSort

variable {α κ : Type} [LinearOrder κ] {key : α → κ} {l : List α} {x y : α}

/-- `l.sort(key=key)`. -/
def sortBy (key : α → κ) (l : List α) : List α := l.mergeSort fun a b => key a ≤ key b

lemma sortBy_perm (key : α → κ) (l : List α) : (sortBy key l).Perm l := List.mergeSort_perm _ _

@[simp] lemma mem_sortBy : x ∈ sortBy key l ↔ x ∈ l := (sortBy_perm key l).mem_iff

lemma sortBy_pairwise (key : α → κ) (l : List α) :
    (sortBy key l).Pairwise fun a b => key a ≤ key b := by
  have h : (sortBy key l).Pairwise fun a b => decide (key a ≤ key b) :=
    List.pairwise_mergeSort (by simpa using fun a b c (hab : key a ≤ key b) hbc => hab.trans hbc)
      (by simpa using fun a b => le_total (key a) (key b)) l
  simpa using h

lemma pair_sublist_sortBy (hle : key x ≤ key y) (h : [x, y].Sublist l) :
    [x, y].Sublist (sortBy key l) :=
  List.pair_sublist_mergeSort
    (by simpa using fun a b c (hab : key a ≤ key b) hbc => hab.trans hbc)
    (by simpa using fun a b => le_total (key a) (key b)) (by simpa using hle) h

/-! ### The latest element -/

/-- No key is greater than that of `x`, and the keys behind it are smaller. -/
def Latest (key : α → κ) (l : List α) (x : α) : Prop :=
  ∃ earlier later, l = earlier ++ x :: later ∧ (∀ y ∈ earlier, key y ≤ key x) ∧
    ∀ y ∈ later, key y < key x

lemma Latest.mem (h : Latest key l x) : x ∈ l := by
  obtain ⟨earlier, later, rfl, -, -⟩ := h
  simp

lemma Latest.le (h : Latest key l x) (hy : y ∈ l) : key y ≤ key x := by
  obtain ⟨earlier, later, rfl, hearlier, hlater⟩ := h
  rcases List.mem_append.mp hy with hy | hy
  · exact hearlier y hy
  · rcases List.mem_cons.mp hy with rfl | hy
    · exact le_refl _
    · exact (hlater y hy).le

lemma latest_of_getLast (hlast : l.getLast? = some x) (hmax : ∀ y ∈ l, key y ≤ key x) :
    Latest key l x := by
  obtain ⟨init, rfl⟩ := List.getLast?_eq_some_iff.mp hlast
  exact ⟨init, [], rfl, fun y hy => hmax y (List.mem_append_left _ hy), by simp⟩

lemma exists_latest (hl : l ≠ []) : ∃ x, Latest key l x := by
  induction l with
  | nil => exact absurd rfl hl
  | cons a l ih =>
    by_cases hnil : l = []
    · exact ⟨a, [], [], by simp [hnil], by simp, by simp⟩
    · obtain ⟨x, hx⟩ := ih hnil
      by_cases hle : key a ≤ key x
      · obtain ⟨earlier, later, rfl, hearlier, hlater⟩ := hx
        refine ⟨x, a :: earlier, later, rfl, ?_, hlater⟩
        exact List.forall_mem_cons.mpr ⟨hle, hearlier⟩
      · refine ⟨a, [], l, rfl, by simp, fun y hy => ?_⟩
        exact lt_of_le_of_lt (hx.le hy) (not_le.mp hle)

lemma latest_map {β : Type} {f : α → β} {key : β → κ} {y : β} :
    Latest key (l.map f) y ↔ ∃ x, Latest (fun x => key (f x)) l x ∧ f x = y := by
  constructor
  · rintro ⟨earlier, later, hsplit, hearlier, hlater⟩
    obtain ⟨l₁, l₂, rfl, rfl, htail⟩ := List.map_eq_append_iff.mp hsplit
    obtain ⟨x, l₃, rfl, rfl, rfl⟩ := List.map_eq_cons_iff.mp htail
    exact ⟨x, ⟨l₁, l₃, rfl, fun z hz => hearlier _ (List.mem_map_of_mem hz),
      fun z hz => hlater _ (List.mem_map_of_mem hz)⟩, rfl⟩
  · rintro ⟨x, ⟨earlier, later, rfl, hearlier, hlater⟩, rfl⟩
    exact ⟨earlier.map f, later.map f, by simp, List.forall_mem_map.mpr hearlier,
      List.forall_mem_map.mpr hlater⟩

lemma latest_congr {key key' : α → κ} (h : ∀ x ∈ l, key x = key' x) :
    Latest key l x ↔ Latest key' l x := by
  have himp : ∀ {key key' : α → κ}, (∀ x ∈ l, key x = key' x) → Latest key l x →
      Latest key' l x := by
    rintro key key' h ⟨earlier, later, rfl, hearlier, hlater⟩
    have hx := h x (by simp)
    refine ⟨earlier, later, rfl, fun z hz => ?_, fun z hz => ?_⟩
    · rw [← h z (by simp [hz]), ← hx]
      exact hearlier z hz
    · rw [← h z (by simp [hz]), ← hx]
      exact hlater z hz
  exact ⟨himp h, himp fun x hx => (h x hx).symm⟩

lemma pair_antisymm (hnodup : l.Nodup) (hxy : [x, y].Sublist l) (hyx : [y, x].Sublist l) :
    False := by
  induction l with
  | nil => simp at hxy
  | cons a l ih =>
    obtain ⟨hnot, hnodup⟩ := List.nodup_cons.mp hnodup
    cases hxy with
    | cons _ hxy' =>
      cases hyx with
      | cons _ hyx' => exact ih hnodup hxy' hyx'
      | cons_cons _ hyx' => exact hnot (hxy'.subset (List.mem_cons_of_mem _ List.mem_cons_self))
    | cons_cons _ hxy' =>
      cases hyx with
      | cons _ hyx' => exact hnot (hyx'.subset (List.mem_cons_of_mem _ List.mem_cons_self))
      | cons_cons _ hyx' => exact hnot (hyx'.subset List.mem_cons_self)

lemma getLast?_filter_sortBy_of_latest (hnodup : l.Nodup) {p : α → Bool}
    (h : Latest key (l.filter p) x) : ((sortBy key l).filter p).getLast? = some x := by
  have hmem : x ∈ (sortBy key l).filter p := by
    obtain ⟨hx, hp⟩ := List.mem_filter.mp h.mem
    exact List.mem_filter.mpr ⟨mem_sortBy.mpr hx, hp⟩
  have hsorted : ((sortBy key l).filter p).Nodup :=
    ((sortBy_perm key l).nodup_iff.mpr hnodup).filter _
  cases hlast : ((sortBy key l).filter p).getLast? with
  | none =>
    rw [List.getLast?_eq_none_iff.mp hlast] at hmem
    simp at hmem
  | some z =>
    by_cases hzx : z = x
    · rw [hzx]
    -- otherwise `x` stands before `z` after sorting, and so it did not stand after it before
    obtain ⟨init, hinit⟩ := List.getLast?_eq_some_iff.mp hlast
    have hxz : [x, z].Sublist ((sortBy key l).filter p) := by
      rw [hinit] at hmem ⊢
      have hx : x ∈ init := by
        rcases List.mem_append.mp hmem with hx | hx
        · exact hx
        · exact absurd (List.mem_singleton.mp hx).symm hzx
      exact (List.singleton_sublist.mpr hx).append (List.Sublist.refl [z])
    have hle : key x ≤ key z := by
      have hpair := (sortBy_pairwise key l).sublist (hxz.trans List.filter_sublist)
      exact (List.pairwise_cons.mp hpair).1 z (by simp)
    have hz : z ∈ l.filter p := by
      obtain ⟨hz, hp⟩ := List.mem_filter.mp (List.mem_of_getLast? hlast)
      exact List.mem_filter.mpr ⟨mem_sortBy.mp hz, hp⟩
    obtain ⟨earlier, later, hsplit, hearlier, hlater⟩ := h
    rw [hsplit] at hz
    rcases List.mem_append.mp hz with hz | hz
    · have hzxl : [z, x].Sublist (l.filter p) := by
        rw [hsplit]
        exact (List.singleton_sublist.mpr hz).append
          ((List.nil_sublist later).cons_cons x)
      have hzxs := (pair_sublist_sortBy (hearlier z hz) (hzxl.trans List.filter_sublist)).filter p
      have hfilter : [z, x].filter p = [z, x] := by
        have hpz := List.of_mem_filter (List.mem_of_getLast? hlast)
        have hpx := List.of_mem_filter hmem
        simp [hpz, hpx]
      rw [hfilter] at hzxs
      exact (pair_antisymm hsorted hxz hzxs).elim
    · rcases List.mem_cons.mp hz with hz | hz
      · exact absurd hz hzx
      · exact absurd (hlater z hz) (not_lt.mpr hle)

lemma getLast?_filter_sortBy (hnodup : l.Nodup) {p : α → Bool} :
    ((sortBy key l).filter p).getLast? = some x ↔ Latest key (l.filter p) x := by
  refine ⟨fun h => ?_, getLast?_filter_sortBy_of_latest hnodup⟩
  have hmem : x ∈ l.filter p := by
    obtain ⟨hx, hp⟩ := List.mem_filter.mp (List.mem_of_getLast? h)
    exact List.mem_filter.mpr ⟨mem_sortBy.mp hx, hp⟩
  obtain ⟨z, hz⟩ : ∃ z, Latest key (l.filter p) z := exists_latest (List.ne_nil_of_mem hmem)
  have hzlast := getLast?_filter_sortBy_of_latest hnodup hz
  rw [h, Option.some.injEq] at hzlast
  exact hzlast ▸ hz

end StableSort
