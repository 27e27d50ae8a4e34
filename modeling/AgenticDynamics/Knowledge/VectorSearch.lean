import Mathlib.Data.List.Sort
import AgenticDynamics.Knowledge.ScopeFilter

/-!
# The vector store

Embeddings ride on the nodes of the graph. A filtered search asks the vector index for more and more
of the nearest nodes, until enough of them pass the filter, all that were counted are scanned, or a
cap is reached. The count is taken at the first filtered search of a store and kept.
-/

namespace AgenticDynamics.Knowledge.Retrieval

open Python Cypher

/-! ### The graph -/

/-- A node: its properties, and the vector that is stored with them. -/
structure VectorNode where
  properties : Node
  embedding : Option (List PyFloat) := none

abbrev Corpus := List VectorNode

def VectorNode.property (node : VectorNode) (key : String) : String :=
  (Dict.get? key node.properties).getD ""

def embeddedNodes (corpus : Corpus) : Corpus := corpus.filter fun node => node.embedding.isSome

structure VectorRow where
  id : String
  vector : List PyFloat
  document : String := ""
  metadata : Dict String := []

/-- What `SET` does to a node: the vector is replaced, a text that is there stays, and what the
metadata has is written over. -/
def VectorRow.write (row : VectorRow) (properties : Node) : VectorNode where
  embedding := some row.vector
  properties :=
    let texted := if (Dict.get? "text" properties).isSome then properties
      else Dict.set "text" row.document properties
    coalesce row.metadata (upsert row.metadata texted) "pattern_payload"

/-- `MERGE` on the id. -/
def mergeRow (corpus : Corpus) (row : VectorRow) : Corpus :=
  if ∃ node ∈ corpus, Dict.get? "knowledge_id" node.properties = some row.id then
    corpus.map fun node =>
      if Dict.get? "knowledge_id" node.properties = some row.id then row.write node.properties
      else node
  else corpus ++ [row.write [("knowledge_id", row.id)]]

def upsertRows (corpus : Corpus) (rows : List VectorRow) : Corpus := rows.foldl mergeRow corpus

/-- `Neo4jVectorStore.delete`: the vectors go, the nodes stay. -/
def deleteVectors (corpus : Corpus) (ids : List String) : Corpus :=
  corpus.map fun node =>
    if (Dict.get? "knowledge_id" node.properties).any (· ∈ ids) then { node with embedding := none }
    else node

/-- The vector index: it ranks the nodes that have a vector by their similarity to the query, and
answers with the nearest ones. -/
structure VectorIndex where
  score : List PyFloat → List PyFloat → ℚ
  ranking : List PyFloat → Corpus → Corpus
  ranking_perm : ∀ query corpus, (ranking query corpus).Perm (embeddedNodes corpus)
  ranking_nearest : ∀ query corpus, (ranking query corpus).Pairwise fun a b =>
    score query (b.embedding.getD []) ≤ score query (a.embedding.getD [])

/-! ### The search -/

def expansionFactor : ℕ := 4

def expansionCap : ℕ := 4096

def hitFields : List String :=
  ["repository_id", "acl_scope", "commit_sha", "authority", "source_type", "evidence_class",
    "logical_locator", "observed_at", "content_hash", "pattern_payload"]

structure VectorHit where
  id : String
  document : String
  metadata : Dict String
  distance : ℚ

def VectorIndex.hit (index : VectorIndex) (query : List PyFloat) (node : VectorNode) :
    VectorHit where
  id := node.property "knowledge_id"
  document := node.property "text"
  metadata := hitFields.map fun field => (field, hitMetadata node.properties field)
  distance := 1 - index.score query (node.embedding.getD [])

structure SearchStats where
  scanned : ℕ
  returned : ℕ
  limit : ℕ
  corpus : Option ℕ
  incomplete : Bool

/-- What `search_with_stats` is asked, the query embedded. -/
structure VectorSearch where
  vector : List PyFloat
  topK : ℕ := 10
  whereDoc : Dict Json := []
  filterModel : String := ""
  filterStrategy : String := ""

/-- The filter with the model and the strategy. -/
def VectorSearch.merged (search : VectorSearch) : Dict Json :=
  let withModel := if search.filterModel ≠ "" then
    Dict.set "model" (.str search.filterModel) search.whereDoc else search.whereDoc
  if search.filterStrategy ≠ "" then
    Dict.set "strategy" (.str search.filterStrategy) withModel else withModel

/-- The predicate of a search and its parameters. -/
def VectorSearch.compiled (search : VectorSearch) : Except StoreError (Option Expr × Dict Json) :=
  predicate (.obj search.merged) (searchParams search.vector search.topK)

/-- The predicate keeps a node; without one every node is kept. -/
def keeps (filter : Option Expr × Dict Json) (node : VectorNode) : Bool :=
  filter.1.elim true fun e => e.Holds compareText (fun key => Dict.get? key node.properties)
    (fun name => Dict.get? name filter.2)

/-- The rows of one round: of the `k` nearest nodes those that are kept, up to the limit. -/
def searchRows (ranking : Corpus) (keep : VectorNode → Bool) (limit k : ℕ) : Corpus :=
  ((ranking.take k).filter keep).take limit

/-- The rounds, from `k` on: what was scanned, the rows, and whether they are enough. -/
def searchRounds (rows : ℕ → Corpus) (limit : ℕ) (filtered : Bool) (total : Option ℕ) (k : ℕ)
    (hk : 0 < k) : ℕ × Corpus × Bool :=
  let scanned := min k expansionCap
  if limit ≤ (rows scanned).length then (scanned, rows scanned, true)
  else if ∃ n ∈ total, n ≤ scanned then (scanned, rows scanned, false)
  else if hcap : expansionCap ≤ scanned then (scanned, rows scanned, false)
  else if !filtered ∧ (rows scanned).length < scanned then (scanned, rows scanned, false)
  else searchRounds rows limit filtered total (min (scanned * expansionFactor) expansionCap)
    (by
      have : 0 < expansionCap := by decide
      simp only [expansionFactor]
      omega)
termination_by expansionCap - k
decreasing_by
  simp only [expansionFactor, scanned] at *
  omega

/-- The store: the graph, and the count that it keeps. -/
structure VectorStore where
  corpus : Corpus
  corpusCount : Option ℕ := none

/-- The count that bounds a filtered search: the one that is kept, or the present one. -/
def VectorStore.total (store : VectorStore) : ℕ :=
  store.corpusCount.getD (embeddedNodes store.corpus).length

def firstRound (limit : ℕ) : ℕ := max limit expansionFactor

lemma firstRound_pos (limit : ℕ) : 0 < firstRound limit :=
  lt_of_lt_of_le (by decide : 0 < expansionFactor) (le_max_right _ _)

def searchWithStats (index : VectorIndex) (store : VectorStore) (search : VectorSearch) :
    Except StoreError (VectorStore × List VectorHit × SearchStats) := do
  let filter ← search.compiled
  let filtered := filter.1.isSome
  let total := if filtered then some store.total else none
  let ranking := index.ranking search.vector store.corpus
  let (scanned, rows, full) := searchRounds (searchRows ranking (keeps filter) search.topK)
    search.topK filtered total (firstRound search.topK) (firstRound_pos _)
  return ({ store with corpusCount := if filtered then some store.total else store.corpusCount },
    (rows.map (index.hit search.vector)).take search.topK,
    { scanned := scanned
      returned := rows.length
      limit := search.topK
      corpus := total
      incomplete := !full && expansionCap ≤ scanned && total.all fun n => scanned < n })

/-! ### Runs -/

inductive StoreOp
  | upsert (rows : List VectorRow)
  | delete (ids : List String)
  | search (request : VectorSearch)
  /-- A search that the database fails: the count may have been taken before. -/
  | failed (counted : Bool)

def StoreOp.apply (index : VectorIndex) (store : VectorStore) : StoreOp → VectorStore
  | .upsert rows   => { store with corpus := upsertRows store.corpus rows }
  | .delete ids    => { store with corpus := deleteVectors store.corpus ids }
  | .search request =>
    match searchWithStats index store request with
    | .ok (store', _) => store'
    | .error _        => store
  | .failed counted => if counted then { store with corpusCount := some store.total } else store

/-- The searches of a run, each with the store that it finds. -/
def visits (index : VectorIndex) : VectorStore → List StoreOp → List (VectorStore × VectorSearch)
  | _, [] => []
  | store, .search request :: ops =>
    (store, request) :: visits index (StoreOp.apply index store (.search request)) ops
  | store, op :: ops => visits index (op.apply index store) ops

/-- A search that finds too little and does not say that it is incomplete has found all. -/
def NotSilent (index : VectorIndex) (store : VectorStore) (search : VectorSearch) : Prop :=
  ∀ filter store' hits stats, search.compiled = .ok filter →
    searchWithStats index store search = .ok (store', hits, stats) →
      hits.length < search.topK → stats.incomplete = false →
        hits.Perm (((embeddedNodes store.corpus).filter (keeps filter)).map
          (index.hit search.vector))

/-- The scan size at which a filtered search gives up: the first one that reaches the count, or the
cap. -/
def giveUp (total k : ℕ) (hk : 0 < k) : ℕ :=
  let scanned := min k expansionCap
  if total ≤ scanned then scanned
  else if hcap : expansionCap ≤ scanned then scanned
  else giveUp total (min (scanned * expansionFactor) expansionCap)
    (by
      have : 0 < expansionCap := by decide
      simp only [expansionFactor]
      omega)
termination_by expansionCap - k
decreasing_by
  simp only [expansionFactor, scanned] at *
  omega

/-- Where a filtered search gives up because of the count, enough nodes that pass the filter are
among those that are scanned, or none is beyond them. -/
def Covered (index : VectorIndex) (store : VectorStore) (search : VectorSearch) : Prop :=
  ∀ filter, search.compiled = .ok filter → filter.1.isSome →
    let ranking := index.ranking search.vector store.corpus
    let scanned := giveUp store.total (firstRound search.topK) (firstRound_pos _)
    store.total ≤ scanned →
      search.topK ≤ ((ranking.take scanned).filter (keeps filter)).length ∨
        (ranking.drop scanned).filter (keeps filter) = []

section Rounds

variable {rows : ℕ → Corpus} {limit total k : ℕ} {hk : 0 < k}

lemma not_reached {scanned : ℕ} (h : ¬ total ≤ scanned) : ¬ ∃ n ∈ some total, n ≤ scanned :=
  fun ⟨_, hn, hle⟩ => h (Option.some.inj hn ▸ hle)

lemma giveUp_reaches (total k : ℕ) (hk : 0 < k) :
    total ≤ giveUp total k hk ∨ expansionCap ≤ giveUp total k hk := by
  induction k, hk using giveUp.induct total with
  | case1 k hk scanned hle =>
    rw [giveUp, if_pos hle]
    exact .inl hle
  | case2 k hk scanned hlt hcap =>
    rw [giveUp, if_neg hlt, dif_pos hcap]
    exact .inr hcap
  | case3 k hk scanned hlt hcap ih =>
    rw [giveUp, if_neg hlt, dif_neg hcap]
    exact ih

lemma le_giveUp (total k : ℕ) (hk : 0 < k) : min k expansionCap ≤ giveUp total k hk := by
  induction k, hk using giveUp.induct total with
  | case1 k hk scanned hle => rw [giveUp, if_pos hle]
  | case2 k hk scanned hlt hcap => rw [giveUp, if_neg hlt, dif_pos hcap]
  | case3 k hk scanned hlt hcap ih =>
    rw [giveUp, if_neg hlt, dif_neg hcap]
    refine le_trans ?_ ih
    simp only [expansionFactor, scanned]
    omega

lemma searchRounds_filtered (hmono : ∀ a b, a ≤ b → (rows a).length ≤ (rows b).length) :
    (limit ≤ (rows (giveUp total k hk)).length →
      limit ≤ (searchRounds rows limit true (some total) k hk).2.1.length) ∧
    ((rows (giveUp total k hk)).length < limit →
      searchRounds rows limit true (some total) k hk =
        (giveUp total k hk, rows (giveUp total k hk), false)) := by
  induction k, hk using giveUp.induct total with
  | case1 k hk scanned hle =>
    rw [giveUp, if_pos hle, searchRounds]
    constructor
    · intro henough
      rw [if_pos henough]
      exact henough
    · intro hfew
      rw [if_neg hfew.not_ge, if_pos ⟨total, rfl, hle⟩]
  | case2 k hk scanned hlt hcap =>
    rw [giveUp, if_neg hlt, dif_pos hcap, searchRounds]
    constructor
    · intro henough
      rw [if_pos henough]
      exact henough
    · intro hfew
      rw [if_neg hfew.not_ge, if_neg (not_reached hlt), dif_pos hcap]
  | case3 k hk scanned hlt hcap ih =>
    have hscan := le_giveUp total k hk
    rw [giveUp, if_neg hlt, dif_neg hcap] at hscan ⊢
    rw [searchRounds]
    by_cases hearly : limit ≤ (rows scanned).length
    · rw [if_pos hearly]
      refine ⟨fun _ => hearly, fun hfew => ?_⟩
      exact absurd (hearly.trans (hmono _ _ hscan)) hfew.not_ge
    · rw [if_neg hearly, if_neg (not_reached hlt), dif_neg hcap, if_neg (by simp)]
      exact ih

lemma searchRounds_unfiltered :
    ∃ scanned full, searchRounds rows limit false none k hk = (scanned, rows scanned, full) ∧
      min k expansionCap ≤ scanned ∧
      (full = false → (rows scanned).length < limit →
        expansionCap ≤ scanned ∨ (rows scanned).length < scanned) ∧
      (full = true → limit ≤ (rows scanned).length) := by
  induction k, hk using giveUp.induct (expansionCap + 1) with
  | case1 k hk scanned hle => exact absurd hle (by simp only [scanned]; omega)
  | case2 k hk scanned hlt hcap =>
    rw [searchRounds]
    by_cases henough : limit ≤ (rows scanned).length
    · rw [if_pos henough]
      exact ⟨_, _, rfl, le_rfl, by simp, fun _ => henough⟩
    · rw [if_neg henough, if_neg (by simp), dif_pos hcap]
      exact ⟨_, _, rfl, le_rfl, fun _ _ => .inl hcap, by simp⟩
  | case3 k hk scanned hlt hcap ih =>
    rw [searchRounds]
    by_cases henough : limit ≤ (rows scanned).length
    · rw [if_pos henough]
      exact ⟨_, _, rfl, le_rfl, by simp, fun _ => henough⟩
    · rw [if_neg henough, if_neg (by simp), dif_neg hcap]
      by_cases hshort : (rows scanned).length < scanned
      · rw [if_pos ⟨rfl, hshort⟩]
        exact ⟨_, _, rfl, le_rfl, fun _ _ => .inr hshort, by simp⟩
      · rw [if_neg fun h => hshort h.2]
        obtain ⟨last, full, heq, hle, hrest⟩ := ih
        refine ⟨last, full, heq, le_trans ?_ hle, hrest⟩
        simp only [expansionFactor, scanned]
        omega

end Rounds

section Searches

variable {index : VectorIndex} {store store' : VectorStore} {search : VectorSearch}
  {filter : Option Expr × Dict Json} {hits : List VectorHit} {stats : SearchStats}
  {ranking : Corpus} {keep : VectorNode → Bool} {limit : ℕ}

lemma length_searchRows (k : ℕ) : (searchRows ranking keep limit k).length =
    min limit ((ranking.take k).filter keep).length := by
  rw [searchRows, List.length_take]

lemma searchRows_mono (a b : ℕ) (hab : a ≤ b) :
    (searchRows ranking keep limit a).length ≤ (searchRows ranking keep limit b).length := by
  rw [length_searchRows, length_searchRows]
  have hsub : ((ranking.take a).filter keep).Sublist ((ranking.take b).filter keep) :=
    (List.take_sublist_take_left hab).filter keep
  exact min_le_min le_rfl hsub.length_le

lemma searchWithStats_eq (h : search.compiled = .ok filter) :
    searchWithStats index store search =
      let rounds := searchRounds (searchRows (index.ranking search.vector store.corpus)
        (keeps filter) search.topK) search.topK filter.1.isSome
        (if filter.1.isSome then some store.total else none) (firstRound search.topK)
        (firstRound_pos _)
      .ok ({ store with
          corpusCount := if filter.1.isSome then some store.total else store.corpusCount },
        (rounds.2.1.map (index.hit search.vector)).take search.topK,
        { scanned := rounds.1
          returned := rounds.2.1.length
          limit := search.topK
          corpus := if filter.1.isSome then some store.total else none
          incomplete := !rounds.2.2 && expansionCap ≤ rounds.1 &&
            (if filter.1.isSome then some store.total else none).all fun n => rounds.1 < n }) := by
  rw [searchWithStats, h]
  rfl

lemma kept_perm (index : VectorIndex) (query : List PyFloat) (corpus : Corpus)
    (keep : VectorNode → Bool) (k : ℕ) :
    ((embeddedNodes corpus).filter keep).Perm
      (((index.ranking query corpus).take k).filter keep ++
        ((index.ranking query corpus).drop k).filter keep) := by
  rw [← List.filter_append, List.take_append_drop]
  exact ((index.ranking_perm query corpus).symm).filter keep

lemma notSilent_unfiltered (hfilter : search.compiled = .ok filter) (hnone : filter.1 = none) :
    NotSilent index store search := by
  intro filter' store' hits stats hok hsearch hfew hcomplete
  rw [hfilter, Except.ok.injEq] at hok
  subst hok
  obtain ⟨scanned, full, hrounds, hfirst, hends, hfull⟩ := @searchRounds_unfiltered
    (searchRows (index.ranking search.vector store.corpus) (keeps filter) search.topK) search.topK
    (firstRound search.topK) (firstRound_pos _)
  rw [searchWithStats_eq hfilter, hnone] at hsearch
  simp only [Option.isSome_none, Bool.false_eq_true, if_false, hrounds, Except.ok.injEq,
    Prod.mk.injEq] at hsearch
  obtain ⟨-, rfl, rfl⟩ := hsearch
  set ranking := index.ranking search.vector store.corpus
  have hkeep : ∀ l : Corpus, l.filter (keeps filter) = l := fun l =>
    List.filter_eq_self.mpr fun node _ => by simp [keeps, hnone]
  rw [List.length_take, List.length_map] at hfew
  have hpage : (searchRows ranking (keeps filter) search.topK scanned).length < search.topK := by
    omega
  have hnotfull : full = false := by
    by_contra hne
    exact absurd (hfull (Bool.eq_true_of_not_eq_false hne)) hpage.not_ge
  -- the search does not report the cap, so its last page was short
  have hshort : (searchRows ranking (keeps filter) search.topK scanned).length < scanned := by
    rcases hends hnotfull hpage with hcap | hshort
    · simp [hnotfull, hcap] at hcomplete
    · exact hshort
  rw [length_searchRows, hkeep, List.length_take] at hpage hshort
  have hall : ranking.length ≤ scanned := by omega
  have hrows : searchRows ranking (keeps filter) search.topK scanned = ranking := by
    rw [searchRows, hkeep, List.take_of_length_le hall, List.take_of_length_le (by omega)]
  rw [hrows, List.take_of_length_le (by rw [List.length_map]; omega), hkeep]
  exact (index.ranking_perm _ _).map _

lemma notSilent_filtered (hfilter : search.compiled = .ok filter) (hsome : filter.1.isSome) :
    NotSilent index store search ↔ Covered index store search := by
  set ranking := index.ranking search.vector store.corpus with hranking
  set scanned := giveUp store.total (firstRound search.topK) (firstRound_pos _) with hscanned
  obtain ⟨hmany, hfew⟩ := @searchRounds_filtered (searchRows ranking (keeps filter) search.topK)
    search.topK store.total (firstRound search.topK) (firstRound_pos _) searchRows_mono
  rw [← hscanned, length_searchRows] at hmany hfew
  have hresult := @searchWithStats_eq index store search filter hfilter
  simp only [hsome, if_true, ← hranking] at hresult
  by_cases henough : search.topK ≤ ((ranking.take scanned).filter (keeps filter)).length
  · -- enough nodes: the search does not find too little
    refine iff_of_true ?_ fun filter' hok _ _ => ?_
    · intro filter' store' hits stats _ hsearch hlength
      rw [hresult, Except.ok.injEq, Prod.mk.injEq, Prod.mk.injEq] at hsearch
      rw [← hsearch.2.1, List.length_take, List.length_map] at hlength
      have := hmany (le_min le_rfl henough)
      omega
    · rw [hfilter, Except.ok.injEq] at hok
      exact .inl (hok ▸ henough)
  · have hrounds := hfew (lt_of_le_of_lt (min_le_right _ _) (not_le.mp henough))
    have hrows : searchRows ranking (keeps filter) search.topK scanned =
        (ranking.take scanned).filter (keeps filter) :=
      List.take_of_length_le (not_le.mp henough).le
    rw [hrounds, hrows] at hresult
    have hhits : (((ranking.take scanned).filter (keeps filter)).map
        (index.hit search.vector)).take search.topK =
          ((ranking.take scanned).filter (keeps filter)).map (index.hit search.vector) :=
      List.take_of_length_le (by rw [List.length_map]; exact (not_le.mp henough).le)
    simp only [hhits] at hresult
    have hall := (kept_perm index search.vector store.corpus (keeps filter) scanned).map
      (index.hit search.vector)
    rw [List.map_append] at hall
    constructor
    · intro h filter' hok _ _ _ hreached
      rw [hfilter, Except.ok.injEq] at hok
      subst hok
      refine .inr (?_ : (ranking.drop scanned).filter (keeps filter) = [])
      have hperm := h _ _ _ _ hfilter hresult (by simpa using henough)
        (by simpa using fun _ => hreached)
      have hlength := (hperm.trans hall).length_eq
      rw [List.length_append, List.length_map, List.length_map, ← hranking] at hlength
      exact List.length_eq_zero_iff.mp (by omega)
    · intro h filter' store' hits stats hok hsearch _ hcomplete
      rw [hfilter, Except.ok.injEq] at hok
      subst hok
      rw [hresult, Except.ok.injEq, Prod.mk.injEq, Prod.mk.injEq] at hsearch
      obtain ⟨-, rfl, rfl⟩ := hsearch
      -- the search gave up because of the count: at the cap it would say so
      have hreached : store.total ≤ scanned := by
        rcases giveUp_reaches store.total _ (firstRound_pos search.topK) with hle | hcap
        · exact hle
        · exact (by simpa using hcomplete : expansionCap ≤ scanned → store.total ≤ scanned) hcap
      rcases h filter hfilter hsome hreached with henough' | hnone
      · exact absurd henough' henough
      · rw [hnone, List.map_nil, List.append_nil] at hall
        exact hall.symm

lemma notSilent_iff : NotSilent index store search ↔ Covered index store search := by
  cases hfilter : search.compiled with
  | error e =>
    constructor
    · intro _ filter hok
      rw [hfilter] at hok
      cases hok
    · intro _ filter store' hits stats hok
      rw [hfilter] at hok
      cases hok
  | ok filter =>
    by_cases hsome : filter.1.isSome
    · exact notSilent_filtered hfilter hsome
    · refine iff_of_true (notSilent_unfiltered hfilter (by simpa using hsome)) ?_
      intro filter' hok hsome'
      rw [hfilter, Except.ok.injEq] at hok
      exact absurd (hok ▸ hsome') hsome

lemma covered_of_counted (h : (embeddedNodes store.corpus).length ≤ store.total) :
    Covered index store search := by
  intro filter _ _ ranking scanned hle
  refine .inr ?_
  have hlength : ranking.length ≤ scanned := by
    rw [(index.ranking_perm _ _).length_eq]
    exact h.trans hle
  rw [List.drop_eq_nil_of_le hlength]
  rfl

/-- In every run of a store, on whatever graph it starts: a search is not silent about what it
leaves out exactly if it is covered, and it is covered if the count that bounds it is at least the
present one. -/
theorem silent_search_iff (index : VectorIndex) (corpus : Corpus) (ops : List StoreOp) :
    ∀ visit ∈ visits index { corpus } ops,
      (NotSilent index visit.1 visit.2 ↔ Covered index visit.1 visit.2) ∧
      ((embeddedNodes visit.1.corpus).length ≤ visit.1.total → Covered index visit.1 visit.2) :=
  fun _ _ => ⟨notSilent_iff, covered_of_counted⟩

end Searches

/-! ### A count that is kept too long -/

/-- The first coordinate is the similarity. -/
def coordinateScore (_ vector : List PyFloat) : ℚ := (vector.head?.map PyFloat.toRat).getD 0

def nearer (a b : VectorNode) : Prop :=
  coordinateScore [] (b.embedding.getD []) ≤ coordinateScore [] (a.embedding.getD [])

instance : DecidableRel nearer := fun _ _ => inferInstanceAs (Decidable (_ ≤ _))
instance : Std.Total nearer := ⟨fun _ _ => le_total _ _⟩
instance : IsTrans VectorNode nearer := ⟨fun _ _ _ hab hbc => le_trans hbc hab⟩

def coordinateIndex : VectorIndex where
  score := coordinateScore
  ranking _ corpus := (embeddedNodes corpus).insertionSort nearer
  ranking_perm _ _ := List.perm_insertionSort _ _
  ranking_nearest _ _ := List.pairwise_insertionSort nearer _

def scopedRow (id scope : String) (similarity : ℚ) : VectorRow where
  id := id
  vector := [.finite similarity]
  metadata := [("repository_id", scope)]

/-- Four records of another scope are nearer than the one of the cell. -/
def laterRows : List VectorRow :=
  [scopedRow "k1" "other" 2, scopedRow "k2" "other" 2, scopedRow "k3" "other" 2,
    scopedRow "k4" "other" 2, scopedRow "k5" "cell" 1]

def cellSearch : VectorSearch where
  vector := [.finite 1]
  topK := 1
  whereDoc := [("repository_id", .str "cell")]

def cellFilter : Option Expr × Dict Json :=
  (some (.all [.equals "repository_id" "p3"]),
    Dict.set "p3" (.str "cell") (searchParams [.finite 1] 1))

lemma compiled_cellSearch : cellSearch.compiled = .ok cellFilter := by
  have hname : paramName 0 (searchParams [.finite 1] 1) = "p3" := by decide +kernel
  simp [VectorSearch.compiled, VectorSearch.merged, cellSearch, cellFilter, predicate, Json.truthy,
    walk, walkFields, walkField, walkOther, leaf, hname, bind, Except.bind, pure, Except.pure]

/-- The store after the first search and the records. -/
def grownStore : VectorStore where
  corpus := upsertRows [] laterRows
  corpusCount := some 0

lemma visits_grown : visits coordinateIndex { corpus := [] }
    [.search cellSearch, .upsert laterRows, .search cellSearch] =
      [({ corpus := [] }, cellSearch), (grownStore, cellSearch)] := by
  have hcounted : StoreOp.apply coordinateIndex { corpus := [] } (.search cellSearch) =
      { corpus := [], corpusCount := some 0 } := by
    rw [StoreOp.apply, searchWithStats_eq compiled_cellSearch]
    rfl
  simp only [visits, hcounted]
  rfl

/-- The first search counts an empty graph, and the second one gives up after four nodes. -/
theorem grown_corpus_silent : ¬ ∀ visit ∈ visits coordinateIndex { corpus := [] }
    [.search cellSearch, .upsert laterRows, .search cellSearch],
      NotSilent coordinateIndex visit.1 visit.2 := by
  intro h
  rw [visits_grown] at h
  have hcovered := notSilent_iff.mp (h (grownStore, cellSearch) (by simp))
    cellFilter compiled_cellSearch rfl (Nat.zero_le _)
  have hgiveUp : giveUp grownStore.total (firstRound cellSearch.topK) (firstRound_pos _) = 4 := by
    rw [giveUp, if_pos (by decide)]
    rfl
  rw [hgiveUp] at hcovered
  rcases hcovered with henough | hnone
  · exact absurd henough (by decide +kernel)
  · exact absurd (congrArg List.length hnone) (by decide +kernel)

/-- The first search of a store counts what is there. -/
theorem first_search_not_silent :
    NotSilent coordinateIndex { corpus := upsertRows [] laterRows } cellSearch := by
  obtain ⟨hiff, hcovered⟩ := silent_search_iff coordinateIndex (upsertRows [] laterRows)
    [.search cellSearch] ({ corpus := upsertRows [] laterRows }, cellSearch) (by simp [visits])
  exact hiff.mpr (hcovered le_rfl)

end AgenticDynamics.Knowledge.Retrieval
