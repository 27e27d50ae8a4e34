import Mathlib.Data.List.ReduceOption
import AgenticDynamics.Knowledge.EvidenceFusion

/-!
# The order of the evidence

Fusion puts the candidates in the order of their scores. Deduplication puts in the place of the best
member of a content the one of the highest standing, whose score may be lower; the collapse only
removes. Of a list in order the greedy selection takes none before a better one that fits: what did
not fit does not fit later.
-/

namespace AgenticDynamics.Knowledge.Retrieval

open Python

open Context (Authority)

/-! ### Representatives of a content -/

section Champions

variable {l : List Candidate} {c d : Candidate} {k : String}

def InScoreOrder (l : List Candidate) : Prop :=
  l.Pairwise fun c d => d.fusedScore ≤ c.fusedScore

def ofContent (l : List Candidate) (k : String) : List Candidate :=
  l.filter fun c => c.contentKey = k

/-- The candidate stands highest among those of its content, and of those that stand as high it
comes first. -/
def Champion (l : List Candidate) (c : Candidate) : Prop :=
  (ofContent l c.contentKey).argmax Candidate.standing = some c

/-- The content of the first candidate is met before the content of the second. -/
def ContentBefore (l : List Candidate) (c d : Candidate) : Prop :=
  [c.contentKey, d.contentKey].Sublist (firsts (l.map Candidate.contentKey))

/-- The champions of the contents have scores that do not increase in the order in which the
contents are met. -/
def ChampionsInOrder (l : List Candidate) : Prop :=
  ∀ c d, Champion l c → Champion l d → ContentBefore l c d → d.fusedScore ≤ c.fusedScore

lemma mergeGroup_eq_some {group : List Candidate} {survivor : Candidate}
    (h : mergeGroup group = some survivor) :
    ∃ c, group.argmax Candidate.standing = some c ∧
      ∃ provenance, survivor = { c with provenance } := by
  rw [mergeGroup.eq_def] at h
  split at h
  · cases h
    exact ⟨_, List.argmax_singleton, _, rfl⟩
  · obtain ⟨c, hc, rfl⟩ := Option.map_eq_some_iff.mp h
    exact ⟨c, hc, _, rfl⟩

lemma mergeGroup_of_argmax {group : List Candidate}
    (h : group.argmax Candidate.standing = some c) :
    ∃ survivor, mergeGroup group = some survivor ∧ survivor.fusedScore = c.fusedScore := by
  rw [mergeGroup.eq_def]
  split
  · rw [List.argmax_singleton] at h
    cases h
    exact ⟨_, rfl, rfl⟩
  · rw [h]
    exact ⟨_, rfl, rfl⟩

lemma champion_of_argmax (h : (ofContent l k).argmax Candidate.standing = some c) :
    c.contentKey = k ∧ Champion l c := by
  have hkey : c.contentKey = k := by simpa using List.of_mem_filter (List.argmax_mem h)
  exact ⟨hkey, by rw [Champion, hkey, h]⟩

lemma deduplicate_eq (l : List Candidate) : deduplicate l =
    (firsts (l.map Candidate.contentKey)).filterMap fun k => mergeGroup (ofContent l k) := by
  rw [deduplicate, contentGroups, ← Dict.keys_accumulate Candidate.contentKey
    (fun group c => group.getD [] ++ [c]), List.filterMap_map]
  refine List.filterMap_congr fun kv hkv => ?_
  have hentry := Dict.get?_of_mem hkv fun kv' hkv' hk =>
    Dict.value_unique (Dict.nodup_accumulate _ _ _) (hk ▸ hkv') hkv
  rw [Dict.get?_group] at hentry
  split at hentry
  · cases hentry
  · rw [Option.some.injEq] at hentry
    exact congrArg mergeGroup hentry.symm

lemma deduplicate_order_iff : InScoreOrder (deduplicate l) ↔ ChampionsInOrder l := by
  rw [InScoreOrder, deduplicate_eq, List.pairwise_filterMap, List.pairwise_iff_forall_sublist]
  constructor
  · intro h c d hc hd hbefore
    obtain ⟨s, hs, hscore⟩ := mergeGroup_of_argmax hc
    obtain ⟨t, ht, hscore'⟩ := mergeGroup_of_argmax hd
    have hle := h hbefore s hs t ht
    rwa [hscore, hscore'] at hle
  · intro h k k' hbefore s hs t ht
    obtain ⟨c, hc, -, rfl⟩ := mergeGroup_eq_some hs
    obtain ⟨d, hd, -, rfl⟩ := mergeGroup_eq_some ht
    obtain ⟨rfl, hc'⟩ := champion_of_argmax hc
    obtain ⟨rfl, hd'⟩ := champion_of_argmax hd
    exact h c d hc' hd' hbefore

end Champions

/-! ### The collapse -/

section Collapse

variable {l : List Candidate} {similarities : Similarities} {threshold : PyFloat}

lemma collapse_sublist : (collapseRedundant l similarities threshold).Sublist l :=
  List.filter_sublist

lemma collapse_nil : collapseRedundant l [] redundancyThreshold = l := by
  have hcompare : ∀ a b dropped, compareWith [] redundancyThreshold a dropped b = dropped := by
    intro a b dropped
    have hlow : redundancyThreshold.lt (similarity [] a b) = false := by
      have hzero : similarity [] a b = .finite 0 := rfl
      rw [hzero]
      decide +kernel
    simp [compareWith, hlow]
  have hfold : ∀ (a : Candidate) (rest : List Candidate) (dropped : List String),
      rest.foldl (compareWith [] redundancyThreshold a) dropped = dropped := by
    intro a rest dropped
    induction rest with
    | nil => rfl
    | cons b rest ih => rw [List.foldl_cons, hcompare, ih]
  have hnone : ∀ l, droppedFrom [] redundancyThreshold l [] = [] := by
    intro l
    induction l with
    | nil => rfl
    | cons a l ih =>
      rw [droppedFrom, if_neg List.not_mem_nil, hfold, ih]
  rw [collapseRedundant, hnone]
  simp

end Collapse

/-! ### The greedy selection -/

section Greedy

variable {limit : Option ℕ} {s : Selection} {c d : Candidate} {l : List Candidate}

/-- Whatever the budget and the limit of chunks, no candidate is taken while a better one of the
list fits that was not taken. -/
def TakesBestFirst (l : List Candidate) : Prop :=
  ∀ (tokenBudget : ℤ) (limit : Option ℕ) (pre post : List Candidate) (c : Candidate),
    l = pre ++ c :: post → (selectionAfter tokenBudget limit pre).Fits limit c →
      ∀ d ∈ l, c.fusedScore < d.fusedScore →
        d ∈ (selectionAfter tokenBudget limit pre).selected ∨
          ¬ (selectionAfter tokenBudget limit pre).Fits limit d

lemma fits_of_fits_take (h : (s.take limit c).Fits limit d) : s.Fits limit d := by
  rw [Selection.take] at h
  split_ifs at h with hc
  · obtain ⟨hpos, hremaining, hlimit⟩ := h
    refine ⟨hpos, ?_, fun n hn => ?_⟩
    · have := hc.1
      simp only at hremaining
      omega
    · have hcount := hlimit n hn
      rw [Dict.get?_set] at hcount
      split_ifs at hcount with hsource
      · rw [Option.getD_some, hsource] at hcount
        omega
      · exact hcount
  · exact h

lemma fits_of_fits_foldl (h : (l.foldl (Selection.take limit) s).Fits limit d) :
    s.Fits limit d := by
  induction l generalizing s with
  | nil => exact h
  | cons c l ih => exact fits_of_fits_take (ih h)

lemma selected_mono (h : d ∈ s.selected) : d ∈ (l.foldl (Selection.take limit) s).selected := by
  induction l generalizing s with
  | nil => exact h
  | cons c l ih =>
    refine ih ?_
    rw [Selection.take]
    split_ifs
    · exact List.mem_append_left _ h
    · exact h

lemma taken_or_unfit (hd : d ∈ l) : d ∈ (l.foldl (Selection.take limit) s).selected ∨
    ¬ (l.foldl (Selection.take limit) s).Fits limit d := by
  induction l generalizing s with
  | nil => cases hd
  | cons c l ih =>
    rcases List.mem_cons.mp hd with rfl | hd
    · by_cases hfits : s.Fits limit d
      · have htaken : d ∈ (s.take limit d).selected := by
          rw [Selection.take, if_pos hfits]
          exact List.mem_append_right _ (List.mem_singleton_self d)
        exact .inl (selected_mono (l := l) htaken)
      · exact .inr fun h => hfits (fits_of_fits_foldl (l := d :: l) h)
    · exact ih hd

lemma takesBestFirst_of_order (h : InScoreOrder l) : TakesBestFirst l := by
  intro tokenBudget limit pre post c hl _ d hd hlt
  have hpre : d ∈ pre := by
    rw [hl, List.mem_append, List.mem_cons] at hd
    rw [InScoreOrder, hl, List.pairwise_append, List.pairwise_cons] at h
    rcases hd with hd | rfl | hd
    · exact hd
    · exact absurd hlt (lt_irrefl _)
    · exact absurd hlt (h.2.1.1 d hd).not_gt
  exact taken_or_unfit hpre

end Greedy

section Direct

variable {host : Host} {query : FusionQuery} {candidates fused : List Candidate}

lemma directCandidates_eq (h : fuseCandidates host query candidates = .ok fused)
    (similarities : Similarities) : directCandidates host query similarities candidates =
      .ok (collapseRedundant (deduplicate fused) similarities redundancyThreshold) := by
  rw [directCandidates, h]
  rfl

end Direct

/-! ### A champion with a low score -/

def indexHost : Host where
  loads _ := .error ("JSONDecodeError", "")
  repr _ := ""
  upper := id
  lower := id
  sha256 := id
  dumps _ := ""
  fromisoformat _ := none

def plainQuery : FusionQuery where
  exactTerms := []
  now := ⟨0, true⟩

def hit (id contentHash : String) (authority : Authority) (rank : ℕ) : Candidate where
  id := id
  text := id
  contentHash := contentHash
  authority := authority
  locator := id
  denseRank := some rank
  tokenCount := 1

/-- The best hit shares its content with the worst one, which was measured. -/
def sharedContent : List Candidate :=
  [hit "a" "x" .derived 0, hit "b" "y" .derived 1, hit "c" "x" .measured 30]

def scored (id contentHash : String) (authority : Authority) (rank : ℕ) : Candidate :=
  { hit id contentHash authority rank with
    fusedScore := authorityMultiplier authority / (60 + rank) }

lemma scoreCandidate_hit {id contentHash : String} {authority : Authority} {rank : ℕ}
    (hauthority : authority = .derived ∨ authority = .measured) :
    scoreCandidate indexHost plainQuery (hit id contentHash authority rank) =
      .ok (some (scored id contentHash authority rank)) := by
  have hscore : (1 : ℚ) / (60 + rank) * authorityMultiplier authority =
      authorityMultiplier authority / (60 + rank) := by ring
  rcases hauthority with rfl | rfl <;>
    simp [scoreCandidate, freshnessMultiplier, hit, plainQuery, exactIdentifierHit,
      computeFusedScore, patternUncertaintyMultiplier, Candidate.isPattern, rrfBase,
      sourceTypePrior, scored, bind, Except.bind, pure, Except.pure, ← hscore]

lemma fuse_sharedContent : fuseCandidates indexHost plainQuery sharedContent =
    .ok [scored "a" "x" .derived 0, scored "b" "y" .derived 1, scored "c" "x" .measured 30] := by
  have hscored : sharedContent.mapM (scoreCandidate indexHost plainQuery) =
      .ok [some (scored "a" "x" .derived 0), some (scored "b" "y" .derived 1),
        some (scored "c" "x" .measured 30)] := by
    simp [sharedContent, scoreCandidate_hit, bind, Except.bind, pure, Except.pure]
  rw [fuseCandidates, hscored]
  refine congrArg Except.ok (List.mergeSort_of_pairwise ?_)
  decide +kernel

end AgenticDynamics.Knowledge.Retrieval
