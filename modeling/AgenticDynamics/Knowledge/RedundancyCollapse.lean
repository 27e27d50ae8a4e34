import Mathlib.Logic.Relation
import AgenticDynamics.Knowledge.EvidenceFusion

/-!
# The collapse of near-duplicates

A candidate that is dropped was beaten by another one that is similar to it and stands no lower.
The other one may be dropped itself, before or after, but on the way from one to the next the
standing rises, or stays and the place in the list comes earlier: the way ends at one that is kept.
-/

namespace AgenticDynamics.Knowledge.Retrieval

open Python

open Context (Authority)

section Collapse

variable {similarities : Similarities} {threshold : PyFloat} {all : List Candidate}
  {a b c d x y : Candidate} {dropped : List String}

def place (all : List Candidate) (c : Candidate) : ℕ := (all.map Candidate.id).idxOf c.id

/-- The similarity of two candidates of the list is above the threshold. -/
def Near (similarities : Similarities) (threshold : PyFloat) (all : List Candidate)
    (c d : Candidate) : Prop :=
  threshold.lt (if place all c < place all d then similarity similarities c d
    else similarity similarities d c) = true

instance : Decidable (Near similarities threshold all c d) := inferInstanceAs (Decidable (_ = true))

/-- The second candidate of the list may stand for the first: they are similar, neither is marked
conflict, and its standing is at least that of the first. -/
structure Absorbed (similarities : Similarities) (threshold : PyFloat) (all : List Candidate)
    (c d : Candidate) : Prop where
  mem : d ∈ all
  near : Near similarities threshold all c d
  unmarked : c.conflict = false ∧ d.conflict = false
  standing : c.standing ≤ d.standing

/-- What rises from a dropped candidate to the one that beat it. -/
def height (all : List Candidate) (c : Candidate) : (Authority ×ₗ String) ×ₗ ℕᵒᵈ :=
  toLex (c.standing, OrderDual.toDual (place all c))

/-- A candidate was beaten by another one. -/
def Beaten (similarities : Similarities) (threshold : PyFloat) (all : List Candidate)
    (c d : Candidate) : Prop :=
  Absorbed similarities threshold all c d ∧ height all c < height all d

lemma height_lt_of_beaten (h : Relation.TransGen (Beaten similarities threshold all) c d) :
    height all c < height all d := by
  induction h with
  | single hstep => exact hstep.2
  | tail _ hstep ih => exact ih.trans hstep.2

lemma absorbed_of_beaten (h : Relation.TransGen (Beaten similarities threshold all) c d) :
    Relation.TransGen (Absorbed similarities threshold all) c d := by
  induction h with
  | single hstep => exact .single hstep.1
  | tail _ hstep ih => exact ih.tail hstep.1

lemma standing_le_of_absorbed (h : Relation.TransGen (Absorbed similarities threshold all) c d) :
    c.standing ≤ d.standing := by
  induction h with
  | single hstep => exact hstep.standing
  | tail _ hstep ih => exact ih.trans hstep.standing

/-- Whatever is dropped leads to one that is not. -/
def Represented (similarities : Similarities) (threshold : PyFloat) (all : List Candidate)
    (dropped : List String) : Prop :=
  ∀ c ∈ all, c.id ∈ dropped →
    ∃ d ∈ all, d.id ∉ dropped ∧ Relation.TransGen (Beaten similarities threshold all) c d

variable (hids : (all.map Candidate.id).Nodup)
include hids

lemma eq_of_id (hc : c ∈ all) (hd : d ∈ all) (hid : c.id = d.id) : c = d :=
  List.inj_on_of_nodup_map hids hc hd hid

lemma Represented.drop (h : Represented similarities threshold all dropped) (hx : x ∈ all)
    (hbeaten : Beaten similarities threshold all x y) :
    Represented similarities threshold all (x.id :: dropped) := by
  by_cases hold : x.id ∈ dropped
  · have hsame : ∀ k, k ∈ x.id :: dropped ↔ k ∈ dropped := by
      intro k
      rw [List.mem_cons, or_iff_right_of_imp]
      rintro rfl
      exact hold
    intro c hc hmem
    obtain ⟨d, hd, hnew, hway⟩ := h c hc ((hsame _).mp hmem)
    exact ⟨d, hd, fun hd' => hnew ((hsame _).mp hd'), hway⟩
  -- one that is kept stands for the candidate: the one that beat it, or what that one led to
  obtain ⟨e, he, hkept, hway⟩ : ∃ e ∈ all, e.id ∉ x.id :: dropped ∧
      Relation.TransGen (Beaten similarities threshold all) x e := by
    have hother : ∀ e ∈ all, e.id ∉ dropped →
        Relation.TransGen (Beaten similarities threshold all) x e → e.id ∉ x.id :: dropped := by
      intro e he hnew hway hmem
      rcases List.mem_cons.mp hmem with hid | hmem
      · rw [eq_of_id hids he hx hid] at hway
        exact lt_irrefl _ (height_lt_of_beaten hway)
      · exact hnew hmem
    by_cases hy : y.id ∈ dropped
    · obtain ⟨e, he, hnew, hway⟩ := h y hbeaten.1.mem hy
      exact ⟨e, he, hother e he hnew (.head hbeaten hway), .head hbeaten hway⟩
    · exact ⟨y, hbeaten.1.mem, hother y hbeaten.1.mem hy (.single hbeaten), .single hbeaten⟩
  intro c hc hmem
  rcases List.mem_cons.mp hmem with hid | hmem
  · rw [eq_of_id hids hc hx hid]
    exact ⟨e, he, hkept, hway⟩
  · obtain ⟨d, hd, hnew, hrest⟩ := h c hc hmem
    by_cases hid : d.id = x.id
    · rw [eq_of_id hids hd hx hid] at hrest
      exact ⟨e, he, hkept, hrest.trans hway⟩
    · exact ⟨d, hd, by simp [hid, hnew], hrest⟩

lemma Represented.compareWith (h : Represented similarities threshold all dropped) (ha : a ∈ all)
    (hb : b ∈ all) (hplace : place all a < place all b) :
    Represented similarities threshold all (compareWith similarities threshold a dropped b) := by
  rw [Retrieval.compareWith]
  split_ifs with hdropped hnear hconflict hstanding
  · exact h
  · exact h
  · have hunmarked : a.conflict = false ∧ b.conflict = false := by simpa using hconflict
    refine h.drop hids hb (y := a) ⟨⟨ha, ?_, hunmarked.symm, hstanding⟩, ?_⟩
    · rwa [Near, if_neg hplace.not_gt]
    · refine Prod.Lex.toLex_lt_toLex.mpr ?_
      exact hstanding.lt_or_eq.imp id fun heq => ⟨heq, OrderDual.toDual_lt_toDual.mpr hplace⟩
  · have hunmarked : a.conflict = false ∧ b.conflict = false := by simpa using hconflict
    have hlt : a.standing < b.standing := not_le.mp hstanding
    refine h.drop hids ha (y := b) ⟨⟨hb, ?_, hunmarked, hlt.le⟩, ?_⟩
    · rwa [Near, if_pos hplace]
    · exact Prod.Lex.toLex_lt_toLex.mpr (.inl hlt)
  · exact h

lemma Represented.compareAll {rest : List Candidate} (ha : a ∈ all)
    (hrest : ∀ b ∈ rest, b ∈ all ∧ place all a < place all b)
    (h : Represented similarities threshold all dropped) :
    Represented similarities threshold all
      (rest.foldl (Retrieval.compareWith similarities threshold a) dropped) := by
  induction rest generalizing dropped with
  | nil => exact h
  | cons b rest ih =>
    obtain ⟨⟨hb, hplace⟩, hrest⟩ := List.forall_mem_cons.mp hrest
    exact ih hrest (h.compareWith hids ha hb hplace)

lemma place_lt {pre rest : List Candidate} (hall : all = pre ++ a :: rest) (hb : b ∈ rest) :
    place all a < place all b := by
  have hsplit : all.map Candidate.id =
      pre.map Candidate.id ++ a.id :: rest.map Candidate.id := by
    rw [hall, List.map_append, List.map_cons]
  rw [hsplit] at hids
  obtain ⟨-, hcons, hdisjoint⟩ := List.nodup_append.mp hids
  obtain ⟨hnew, -⟩ := List.nodup_cons.mp hcons
  have hbid : b.id ∈ rest.map Candidate.id := List.mem_map_of_mem hb
  have hapre : a.id ∉ pre.map Candidate.id := fun h => hdisjoint _ h _ List.mem_cons_self rfl
  have hbpre : b.id ∉ pre.map Candidate.id := fun h =>
    hdisjoint _ h _ (List.mem_cons_of_mem _ hbid) rfl
  have hne : a.id ≠ b.id := fun h => hnew (h ▸ hbid)
  rw [place, place, hsplit, List.idxOf_append_of_notMem hapre, List.idxOf_append_of_notMem hbpre,
    List.idxOf_cons_self, List.idxOf_cons_ne _ hne]
  omega

lemma Represented.droppedFrom {pre rest : List Candidate} (hall : all = pre ++ rest)
    (h : Represented similarities threshold all dropped) :
    Represented similarities threshold all
      (droppedFrom similarities threshold rest dropped) := by
  induction rest generalizing pre dropped with
  | nil => exact h
  | cons a rest ih =>
    rw [Retrieval.droppedFrom]
    have hahead : all = (pre ++ [a]) ++ rest := by simpa using hall
    refine ih hahead ?_
    split_ifs
    · exact h
    · refine h.compareAll hids (by simp [hall]) fun b hb => ⟨by simp [hall, hb], ?_⟩
      exact place_lt hids hall hb

end Collapse

section Representatives

variable {similarities : Similarities} {threshold : PyFloat} {candidates : List Candidate}

/-- The collapse keeps every candidate that is marked conflict, and of what it drops a
representative: a way from one candidate to a similar one that stands no lower leads to it. -/
theorem collapse_keeps_representative (hids : (candidates.map Candidate.id).Nodup) :
    (∀ c ∈ candidates, c.conflict = true →
      c ∈ collapseRedundant candidates similarities threshold) ∧
    ∀ c ∈ candidates, c ∉ collapseRedundant candidates similarities threshold →
      ∃ d ∈ collapseRedundant candidates similarities threshold, c.standing ≤ d.standing ∧
        Relation.TransGen (Absorbed similarities threshold candidates) c d := by
  have hnil : Represented similarities threshold candidates [] := fun c _ h => by cases h
  have hsplit : candidates = [] ++ candidates := rfl
  have hall := hnil.droppedFrom hids hsplit
  have hkept : ∀ c ∈ candidates, c ∉ collapseRedundant candidates similarities threshold →
      c.id ∈ droppedFrom similarities threshold candidates [] := by
    intro c hc hdropped
    by_contra hnew
    exact hdropped (List.mem_filter.mpr ⟨hc, by simpa using hnew⟩)
  refine ⟨fun c hc hconflict => ?_, fun c hc hdropped => ?_⟩
  · by_contra hdropped
    obtain ⟨d, -, -, hway⟩ := hall c hc (hkept c hc hdropped)
    obtain ⟨e, hbeaten, -⟩ := Relation.TransGen.head'_iff.mp hway
    rw [hbeaten.1.unmarked.1] at hconflict
    cases hconflict
  · obtain ⟨d, hd, hnew, hway⟩ := hall c hc (hkept c hc hdropped)
    have hway' : Relation.TransGen (Absorbed similarities threshold candidates) c d :=
      absorbed_of_beaten hway
    refine ⟨d, List.mem_filter.mpr ⟨hd, by simpa using hnew⟩, ?_, hway'⟩
    exact standing_le_of_absorbed hway'

end Representatives

/-! ### What the collapse does not keep -/

/-- One kept candidate stands for each dropped one, by itself. -/
structure KeepsSimilar (similarities : Similarities) (threshold : PyFloat)
    (candidates : List Candidate) : Prop where
  conflicts : ∀ c ∈ candidates, c.conflict = true →
    c ∈ collapseRedundant candidates similarities threshold
  similar : ∀ c ∈ candidates, c ∉ collapseRedundant candidates similarities threshold →
    ∃ d ∈ collapseRedundant candidates similarities threshold,
      Near similarities threshold candidates c d ∧ c.authority ≤ d.authority ∧
        c.observedAt.getD "" ≤ d.observedAt.getD ""

def note (id : String) (authority : Authority) (observedAt : String) : Candidate where
  id := id
  text := id
  contentHash := id
  authority := authority
  locator := id
  observedAt := some observedAt

def alike (a b : String) : (String × String) × PyFloat := ((a, b), .finite (95 / 100))

/-- The first is beaten by the second, and beats the third all the same. -/
def beatenMidway : List Candidate :=
  [note "a" .derived "2026-09", note "b" .measured "2026-09", note "c" .advisory "2026-09"]

/-- The second is younger, and of a lower authority. -/
def youngerAdvice : List Candidate := [note "a" .measured "2026-01", note "b" .advisory "2026-09"]

/-- The third shares its id with the first and is marked conflict. -/
def sharedId : List Candidate :=
  [note "a" .advisory "2026-09", note "b" .measured "2026-09",
    { note "a" .advisory "2026-09" with conflict := true }]

lemma kept_computed :
    droppedFrom [alike "a" "b", alike "a" "c"] redundancyThreshold beatenMidway [] = ["c", "a"] ∧
    droppedFrom [alike "a" "b"] redundancyThreshold youngerAdvice [] = ["b"] ∧
    droppedFrom [alike "a" "b"] redundancyThreshold sharedId [] = ["a"] := by
  decide +kernel

lemma kept_youngerAdvice : collapseRedundant youngerAdvice [alike "a" "b"] redundancyThreshold =
    [note "a" .measured "2026-01"] := by
  rw [collapseRedundant, kept_computed.2.1]
  rfl

/-- A candidate that is beaten goes on beating others, authority goes before freshness, and ids that
are shared are dropped together. -/
theorem similar_not_kept :
    ¬ KeepsSimilar [alike "a" "b", alike "a" "c"] redundancyThreshold beatenMidway ∧
    ¬ KeepsSimilar [alike "a" "b"] redundancyThreshold youngerAdvice ∧
    ¬ KeepsSimilar [alike "a" "b"] redundancyThreshold sharedId := by
  refine ⟨fun h => ?_, fun h => ?_, fun h => ?_⟩
  · have hkept : collapseRedundant beatenMidway [alike "a" "b", alike "a" "c"]
        redundancyThreshold = [note "b" .measured "2026-09"] := by
      rw [collapseRedundant, kept_computed.1]
      rfl
    obtain ⟨d, hd, hnear, -⟩ := h.similar (note "c" .advisory "2026-09") (by simp [beatenMidway])
      (by simp [hkept, note])
    rw [hkept, List.mem_singleton] at hd
    rw [hd] at hnear
    exact absurd hnear (by decide +kernel)
  · obtain ⟨d, hd, -, -, hfresh⟩ := h.similar (note "b" .advisory "2026-09")
      (by simp [youngerAdvice]) (by simp [kept_youngerAdvice, note])
    rw [kept_youngerAdvice, List.mem_singleton] at hd
    rw [hd] at hfresh
    exact absurd hfresh (by decide)
  · have hkept : collapseRedundant sharedId [alike "a" "b"] redundancyThreshold =
        [note "b" .measured "2026-09"] := by
      rw [collapseRedundant, kept_computed.2.2]
      rfl
    have hconflict := h.conflicts { note "a" .advisory "2026-09" with conflict := true }
      (by simp [sharedId]) rfl
    rw [hkept] at hconflict
    simp [note] at hconflict

/-- The younger advice is represented by what was measured. -/
theorem youngerAdvice_represented : ∃ d ∈ collapseRedundant youngerAdvice [alike "a" "b"]
    redundancyThreshold, Relation.TransGen (Absorbed [alike "a" "b"] redundancyThreshold
      youngerAdvice) (note "b" .advisory "2026-09") d := by
  obtain ⟨d, hd, -, hway⟩ := (@collapse_keeps_representative [alike "a" "b"] redundancyThreshold
    youngerAdvice (by decide)).2 (note "b" .advisory "2026-09") (by simp [youngerAdvice])
    (by simp [kept_youngerAdvice, note])
  exact ⟨d, hd, hway⟩

end AgenticDynamics.Knowledge.Retrieval
