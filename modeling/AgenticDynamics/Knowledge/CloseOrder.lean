import AgenticDynamics.Knowledge.SessionClose

/-!
# The order of closes

A close of a session is recorded with the number of its peers, the records of other sessions of its
date. As long as a session is closed again only before another one of its date is closed, these
numbers put the sessions of a date in the order of their closes.
-/

namespace AgenticDynamics.Knowledge.SessionSpine

open Python

/-- A close of a session: its body and the time of its file. -/
abbrev Closed := SessionBody × ℕ

/-- A close that was recorded, with its close sequence. -/
structure Entry where
  body : SessionBody
  closeSeq : ℤ
  time : ℕ
  deriving DecidableEq

def Entry.close (e : Entry) : Closed := (e.body, e.time)

/-- The number of records of other sessions of the date. -/
def peers (es : List Entry) (b : SessionBody) : ℕ :=
  es.countP fun e => e.body.sessionDate = b.sessionDate && e.body.slug ≠ b.slug

/-- The close is recorded unless it is already, with its close sequence. -/
def recordClose (es : List Entry) (c : Closed) : List Entry :=
  if es.any fun e => e.body = c.1 && e.closeSeq = (peers es c.1 : ℤ) + 1 then es
  else es ++ [{ body := c.1, closeSeq := peers es c.1 + 1, time := c.2 }]

def spineOf (history : List Closed) : List Entry := history.foldl recordClose []

/-- The closes whose body is not one of an earlier close. -/
def distinctCloses (history : List Closed) : List Closed :=
  history.foldl (fun cs c => if c.1 ∈ cs.map Prod.fst then cs else cs ++ [c]) []

/-- A session is not closed again after another one of its date, and the files of a session of a
date are later and later. -/
structure Orderly (history : List Closed) : Prop where
  follows : ∀ a b c, [a, b, c].Sublist history → a.1.sessionDate = b.1.sessionDate →
    a.1.sessionDate = c.1.sessionDate → a.1.slug = c.1.slug → b.1.slug = a.1.slug
  later : ∀ a b, [a, b].Sublist history → a.1.sessionDate = b.1.sessionDate →
    a.1.slug = b.1.slug → a.2 < b.2

lemma Orderly.of_concat {history : List Closed} {c : Closed} (h : Orderly (history ++ [c])) :
    Orderly history :=
  ⟨fun _ _ _ hsub => h.follows _ _ _ (hsub.trans (List.sublist_append_left _ _)),
    fun _ _ hsub => h.later _ _ (hsub.trans (List.sublist_append_left _ _))⟩

structure Before (e e' : Entry) : Prop where
  body : e.body ≠ e'.body
  again : e.body.sessionDate = e'.body.sessionDate → e.body.slug = e'.body.slug →
    e.closeSeq = e'.closeSeq ∧ e.time < e'.time
  other : e.body.sessionDate = e'.body.sessionDate → e.body.slug ≠ e'.body.slug →
    e.closeSeq < e'.closeSeq

def ofDate (es : List Entry) (date : String) : ℕ := es.countP fun e => e.body.sessionDate = date

/-- What the records of an orderly history are like. -/
structure Spine (history : List Closed) (es : List Entry) : Prop where
  sub : (es.map Entry.close).Sublist history
  all : ∀ c ∈ history, ∃ e ∈ es, e.body = c.1
  ordered : es.Pairwise Before
  bound : ∀ e ∈ es, e.closeSeq ≤ ofDate es e.body.sessionDate
  /-- The number of a session that no other one of its date follows is up to date. -/
  current : ∀ e ∈ es, (∀ e', [e, e'].Sublist es → e'.body.sessionDate = e.body.sessionDate →
    e'.body.slug = e.body.slug) → e.closeSeq = (peers es e.body : ℤ) + 1

section Step

variable {history : List Closed} {es : List Entry} {c : Closed}

lemma pair_sublist_or {α : Type} {l : List α} {a b : α} (ha : a ∈ l) (hb : b ∈ l) (hne : a ≠ b) :
    [a, b].Sublist l ∨ [b, a].Sublist l := by
  obtain ⟨s, t, rfl⟩ := List.append_of_mem ha
  rcases List.mem_append.mp hb with hb | hb
  · right
    exact (List.singleton_sublist.mpr hb).append (List.singleton_sublist.mpr List.mem_cons_self)
  · rcases List.mem_cons.mp hb with rfl | hb
    · exact absurd rfl hne
    · left
      exact ((List.singleton_sublist.mpr hb).cons_cons a).trans (List.sublist_append_right s _)

lemma peers_congr {b b' : SessionBody} (hdate : b.sessionDate = b'.sessionDate)
    (hslug : b.slug = b'.slug) : peers es b = peers es b' := by
  rw [peers, peers, hdate, hslug]

lemma peers_concat (e : Entry) (b : SessionBody) : peers (es ++ [e]) b =
    peers es b + if e.body.sessionDate = b.sessionDate ∧ e.body.slug ≠ b.slug then 1 else 0 := by
  by_cases h : e.body.sessionDate = b.sessionDate ∧ e.body.slug ≠ b.slug
  · simp [peers, List.countP_append, h.1, h.2]
  · rw [if_neg h]
    have hnot : ¬ (decide (e.body.sessionDate = b.sessionDate) && decide (e.body.slug ≠ b.slug)) =
        true := by simpa using h
    simp only [peers, List.countP_append, List.countP_singleton]
    rw [if_neg hnot]

lemma ofDate_concat (e : Entry) (date : String) :
    ofDate es date ≤ ofDate (es ++ [e]) date := by
  simp [ofDate, List.countP_append]

lemma Spine.again (h : Spine history es) (ho : Orderly (history ++ [c])) {e : Entry} (he : e ∈ es)
    (hdate : e.body.sessionDate = c.1.sessionDate) (hslug : e.body.slug = c.1.slug) :
    e.closeSeq = (peers es c.1 : ℤ) + 1 ∧
      ∀ e', [e, e'].Sublist es → e'.body.sessionDate = e.body.sessionDate →
        e'.body.slug = e.body.slug := by
  have hlast : ∀ e', [e, e'].Sublist es → e'.body.sessionDate = e.body.sessionDate →
      e'.body.slug = e.body.slug := by
    intro e' hsub hdate'
    have hpair : [e.close, e'.close].Sublist history := (hsub.map Entry.close).trans h.sub
    exact ho.follows e.close e'.close c (hpair.append (List.Sublist.refl [c])) hdate'.symm hdate
      hslug
  refine ⟨?_, hlast⟩
  rw [h.current e he hlast, peers_congr hdate hslug]

lemma Spine.not_recorded (h : Spine history es) (ho : Orderly (history ++ [c]))
    (hnew : (es.any fun e => e.body = c.1 && e.closeSeq = (peers es c.1 : ℤ) + 1) = false) :
    ∀ e ∈ es, e.body ≠ c.1 := by
  intro e he hbody
  have hseq := (h.again ho he (by rw [hbody]) (by rw [hbody])).1
  have hany : (es.any fun e => e.body = c.1 && e.closeSeq = (peers es c.1 : ℤ) + 1) = true :=
    List.any_eq_true.mpr ⟨e, he, by simp [hbody, hseq]⟩
  rw [hnew] at hany
  cases hany

lemma Spine.before_new (h : Spine history es) (ho : Orderly (history ++ [c]))
    (hne : ∀ e ∈ es, e.body ≠ c.1) :
    ∀ e ∈ es, Before e { body := c.1, closeSeq := (peers es c.1 : ℤ) + 1, time := c.2 } := by
  intro e he
  refine ⟨hne e he, ?_, ?_⟩
  · intro hdate hslug
    refine ⟨(h.again ho he hdate hslug).1, ?_⟩
    have hmem : [e.close].Sublist history :=
      (List.singleton_sublist.mpr (List.mem_map_of_mem he)).trans h.sub
    exact ho.later e.close c (hmem.append (List.Sublist.refl [c])) hdate hslug
  · intro hdate hslug
    by_cases hagain : ∃ e' ∈ es, e'.body.sessionDate = c.1.sessionDate ∧ e'.body.slug = c.1.slug
    · obtain ⟨e', he', hdate', hslug'⟩ := hagain
      obtain ⟨hseq, hlast⟩ := h.again ho he' hdate' hslug'
      have hslugs : e.body.slug ≠ e'.body.slug := by
        rw [hslug']
        exact hslug
      have hdates : e.body.sessionDate = e'.body.sessionDate := hdate.trans hdate'.symm
      have hne' : e ≠ e' := by
        rintro rfl
        exact hslugs rfl
      -- the other one is not behind the session, so it is in front of it
      rcases pair_sublist_or he he' hne' with hsub | hsub
      · have hbefore := List.pairwise_pair.mp (h.ordered.sublist hsub)
        show e.closeSeq < (peers es c.1 : ℤ) + 1
        rw [← hseq]
        exact hbefore.other hdates hslugs
      · exact absurd (hlast e hsub hdates) hslugs
    · have hall : ofDate es e.body.sessionDate = peers es c.1 := by
        refine List.countP_congr fun e' he' => ?_
        have hother : e'.body.sessionDate = c.1.sessionDate → e'.body.slug ≠ c.1.slug :=
          fun hdate' hslug' => hagain ⟨e', he', hdate', hslug'⟩
        simp only [hdate, decide_eq_true_eq, ne_eq, Bool.and_eq_true]
        exact ⟨fun h => ⟨h, by simpa using hother h⟩, fun h => h.1⟩
      have hbound := h.bound e he
      rw [hall] at hbound
      show e.closeSeq < (peers es c.1 : ℤ) + 1
      omega

lemma Spine.nil : Spine [] [] := by
  constructor <;> simp

lemma Spine.step (h : Spine history es) (ho : Orderly (history ++ [c])) :
    Spine (history ++ [c]) (recordClose es c) := by
  rw [recordClose]
  split
  · rename_i hany
    obtain ⟨e, he, hbody⟩ := List.any_eq_true.mp hany
    simp only [Bool.and_eq_true, decide_eq_true_eq] at hbody
    refine ⟨h.sub.trans (List.sublist_append_left _ _), ?_, h.ordered, h.bound, h.current⟩
    intro c' hc'
    rcases List.mem_append.mp hc' with hc' | hc'
    · exact h.all c' hc'
    · rw [List.mem_singleton.mp hc']
      exact ⟨e, he, hbody.1⟩
  · rename_i hany
    have hne := h.not_recorded ho (Bool.not_eq_true _ ▸ hany)
    have hbefore := h.before_new ho hne
    refine ⟨?_, ?_, ?_, ?_, ?_⟩
    · rw [List.map_append]
      exact h.sub.append (List.Sublist.refl [c])
    · intro c' hc'
      rcases List.mem_append.mp hc' with hc' | hc'
      · obtain ⟨e, he, hbody⟩ := h.all c' hc'
        exact ⟨e, List.mem_append_left _ he, hbody⟩
      · rw [List.mem_singleton.mp hc']
        exact ⟨_, List.mem_append_right _ (List.mem_singleton_self _), rfl⟩
    · refine List.pairwise_append.mpr ⟨h.ordered, List.pairwise_singleton _ _, ?_⟩
      intro e he e' he'
      rw [List.mem_singleton.mp he']
      exact hbefore e he
    · intro e he
      rcases List.mem_append.mp he with he | he
      · have hle := @ofDate_concat es
          { body := c.1, closeSeq := (peers es c.1 : ℤ) + 1, time := c.2 } e.body.sessionDate
        have hbound := h.bound e he
        omega
      · rw [List.mem_singleton.mp he]
        have hpeers : peers es c.1 ≤ ofDate es c.1.sessionDate :=
          List.countP_mono_left fun e _ he => by
            simp only [Bool.and_eq_true] at he
            exact he.1
        simp only [ofDate, List.countP_append, List.countP_singleton, decide_true, if_true] at *
        omega
    · intro e he hlast
      rw [peers_concat]
      rcases List.mem_append.mp he with he | he
      · have hnew : ¬ (c.1.sessionDate = e.body.sessionDate ∧ c.1.slug ≠ e.body.slug) := by
          rintro ⟨hdate, hslug⟩
          exact hslug (hlast _ ((List.singleton_sublist.mpr he).append (List.Sublist.refl _)) hdate)
        rw [if_neg hnew, h.current e he fun e' hsub =>
          hlast e' (hsub.trans (List.sublist_append_left _ _))]
        simp
      · rw [List.mem_singleton.mp he]
        simp

end Step

theorem spine_of_orderly {history : List Closed} (ho : Orderly history) :
    Spine history (spineOf history) := by
  induction history using List.reverseRecOn with
  | nil => exact .nil
  | append_singleton history c ih =>
    rw [spineOf, List.foldl_append]
    exact (ih ho.of_concat).step ho

theorem spineOf_close {history : List Closed} (ho : Orderly history) :
    (spineOf history).map Entry.close = distinctCloses history := by
  induction history using List.reverseRecOn with
  | nil => rfl
  | append_singleton history c ih =>
    have hspine := spine_of_orderly ho.of_concat
    have hprefix := ih ho.of_concat
    have hfirst : distinctCloses (history ++ [c]) =
        if c.1 ∈ (distinctCloses history).map Prod.fst then distinctCloses history
        else distinctCloses history ++ [c] := by
      rw [distinctCloses, List.foldl_append]
      rfl
    have hmem : c.1 ∈ (distinctCloses history).map Prod.fst ↔
        ∃ e ∈ spineOf history, e.body = c.1 := by
      rw [← hprefix]
      simp [Entry.close]
    have hstep : spineOf (history ++ [c]) = recordClose (spineOf history) c := by
      rw [spineOf, List.foldl_append]
      rfl
    rw [hfirst, hstep, recordClose]
    split
    · rename_i hany
      obtain ⟨e, he, hbody⟩ := List.any_eq_true.mp hany
      simp only [Bool.and_eq_true, decide_eq_true_eq] at hbody
      rw [if_pos (hmem.mpr ⟨e, he, hbody.1⟩), hprefix]
    · rename_i hany
      have hne := hspine.not_recorded ho (Bool.not_eq_true _ ▸ hany)
      rw [if_neg fun h => ?_, List.map_append, hprefix]
      · rfl
      · obtain ⟨e, he, hbody⟩ := hmem.mp h
        exact hne e he hbody

end AgenticDynamics.Knowledge.SessionSpine
