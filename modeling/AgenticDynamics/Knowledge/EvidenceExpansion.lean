import AgenticDynamics.Knowledge.ScopeFilter
import AgenticDynamics.Knowledge.EvidenceOrder

/-!
# The expansion of the evidence

The strongest candidates are expanded through the graph. A neighbour is left out if it has the id of
a candidate that is there when the expansion starts; it is not compared with what was removed
before, nor with the neighbours that were added before it, and contents are not compared at all.
-/

namespace AgenticDynamics.Knowledge.Retrieval

open Python

open Context (Authority)

/-! ### Neighbours -/

/-- A node of the expansion; its properties are texts. -/
structure ExpandedNode where
  canonicalId : String := ""
  id : String := ""
  properties : Dict String := []
  originSeed : String := ""
  depth : ℕ := 0
  relType : String := ""
  path : List String := []

/-- What a retrieval asks besides of a neighbour. -/
structure ExpansionQuery extends FusionQuery where
  patternProjection : Bool := false
  /-- The source types of the resolved layers; none lets every type pass. -/
  sourceTypes : List String := []
  repositoryId : String := ""
  aclScope : String := ""
  sharedRepositoryIds : Json := .null
  /-- What the resolver of source types gives for an id; none if it raises. -/
  sourceTypeResolver : Option (String → Option String) := none
  seedCount : ℕ := 12

def canonicalId (properties : Dict String) (fallback : String) : String :=
  ((["knowledge_id", "doc_id", "step_id", "entity_id"].filterMap fun key =>
    properties.get? key).find? fun value => value ≠ "").getD fallback

/-- `_source_type`. -/
def sourceTypeOf (host : Host) (properties : Dict String) : String :=
  let sourceType := host.lower (strip ((properties.get? "source_type").getD ""))
  if sourceType = "" ∧ (properties.get? "pattern_payload").isSome then "pattern" else sourceType

def resolveSourceType (host : Host) (resolver : Option (String → Option String))
    (properties : Dict String) (cid : String) : String :=
  let sourceType := sourceTypeOf host properties
  match resolver with
  | none         => sourceType
  | some resolve =>
    if sourceType ≠ "" then sourceType
    else
      let resolved := host.lower (strip ((resolve cid).getD ""))
      if resolved ≠ "" then resolved else sourceType

def candidateAllowed (sourceType : String) (patternProjection : Bool) (authority : Authority)
    (evidenceClass : String) : Bool :=
  if sourceType = "fact" then false
  else if sourceType ≠ "pattern" then true
  else patternProjection && authority = .derived && (evidenceClass = "" || evidenceClass = "[C]")

def requiredPayloadFields : List String :=
  ["claim", "population", "conditions", "support", "uncertainty", "validity_window",
    "source_experiment"]

/-- `_pattern_payload` of a text; what is no `JSONDecodeError` is not caught. -/
def patternPayload (host : Host) (value : Option String) (text : String) :
    Except String (Option (Dict Json)) :=
  match host.loads (orElse value text) with
  | .ok (.obj data) =>
    .ok (if requiredPayloadFields.all fun field => (Dict.get? field data).isSome then some data
      else none)
  | .ok _           => .ok none
  | .error e        => if e.1 = "JSONDecodeError" then .ok none else .error e.1

def sourceTypeAllowed (host : Host) (sourceType : String) (allowed : List String) : Bool :=
  allowed = [] || host.lower (strip sourceType) ∈ allowed

def relationshipWeights : Dict ℚ :=
  [("TESTED_BY", 1), ("DEFINES", 1), ("SUPERSEDES", 1), ("CONTAINS", 9 / 10), ("IMPORTS", 8 / 10),
    ("CALLS", 8 / 10), ("PRODUCED_BY", 8 / 10), ("PRECEDES", 7 / 10), ("AFFECTS", 7 / 10),
    ("CONTRADICTS", 6 / 10)]

def relationshipWeight (relType : String) : ℚ := (relationshipWeights.get? relType).getD 0

def graphBoost (seedScore : ℚ) (depth : ℕ) (relType : String) : ℚ :=
  seedScore * relationshipWeight relType * (7 / 10) ^ depth

def estimateTokens (text : String) : ℤ := max 1 (words text).length

/-! ### The loop -/

def seedScores (seedCount : ℕ) (fused : List Candidate) : Dict ℚ :=
  (fused.take seedCount).foldl (fun scores c => scores.set c.id c.fusedScore) []

/-- The id of a neighbour: the one that the graph resolved, or that of its properties. -/
def ExpandedNode.cid (node : ExpandedNode) : String :=
  if node.canonicalId ≠ "" then node.canonicalId
  else Retrieval.canonicalId node.properties node.id

/-- The candidate that a neighbour becomes, unless one of the gates stops it. -/
def expandNode (host : Host) (query : ExpansionQuery) (seeds : Dict ℚ) (node : ExpandedNode) :
    Except String (Option Candidate) :=
  let props := node.properties
  let cid := node.cid
  let text := (props.get? "text").getD ""
  let commitSha := (props.get? "commit_sha").getD ""
  let evidenceClass := (props.get? "evidence_class").getD ""
  let shared := Json.arr ((normalizeSharedRepositoryIds host query.sharedRepositoryIds).map .str)
  let sourceType := resolveSourceType host query.sourceTypeResolver props cid
  let authority := (props.get? "authority").elim Authority.advisory (coerceAuthority host)
  if freshnessMultiplier host authority commitSha (props.get? "observed_at") query.currentCommit
      query.now = none then .ok none
  else if !candidateAllowed sourceType query.patternProjection authority evidenceClass then .ok none
  else do
    let payload ←
      if sourceType = "pattern" then patternPayload host (props.get? "pattern_payload") text
      else .ok none
    if sourceType = "pattern" ∧ payload = none then return none
    if !sourceTypeAllowed host sourceType query.sourceTypes then return none
    if scopeExcluded host ((props.get? "repository_id").getD "") query.repositoryId shared then
      return none
    if aclExcluded host ((props.get? "acl_scope").getD "") query.aclScope shared then return none
    match seeds.get? node.originSeed with
    | none           => return none
    | some seedScore =>
      if seedScore ≤ 0 then return none
      return some {
        id := cid
        text := text
        contentHash := (props.get? "content_hash").getD ""
        joinContentHash := host.sha256 text
        authority := authority
        locator := (props.get? "logical_locator").getD cid
        commitSha := (props.get? "commit_sha").getD query.currentCommit
        repositoryId := (props.get? "repository_id").getD ""
        observedAt := props.get? "observed_at"
        graphDepth := node.depth
        graphPath := node.path
        relationshipWeight := relationshipWeight node.relType
        tokenCount := estimateTokens text
        fusedScore := graphBoost seedScore node.depth node.relType
        sourceType := sourceType
        patternPayload := payload
        evidenceClass := evidenceClass }

/-- The neighbours that are added; one that raises ends the loop. -/
def expandedFrom (host : Host) (query : ExpansionQuery) (fusedIds : List String) (seeds : Dict ℚ) :
    List ExpandedNode → List Candidate
  | [] => []
  | node :: rest =>
    if node.cid ∈ fusedIds then expandedFrom host query fusedIds seeds rest
    else match expandNode host query seeds node with
      | .error _ => []
      | .ok c    => c.toList ++ expandedFrom host query fusedIds seeds rest

/-- What the expansion adds to the candidates. -/
def expanded (host : Host) (query : ExpansionQuery) (fused : List Candidate)
    (nodes : List ExpandedNode) : List Candidate :=
  expandedFrom host query (fused.map Candidate.id) (seedScores query.seedCount fused) nodes

/-- An untyped candidate is not selected where there is a typed one. -/
def selectionPool (fused : List Candidate) : List Candidate :=
  let typed := fused.filter fun c => strip c.sourceType ≠ ""
  if typed ≠ [] ∧ typed.length < fused.length then typed else fused

/-- What `retrieve` selects, given what its legs, the embedder and the graph answered. -/
def selectedEvidence (host : Host) (query : ExpansionQuery) (similarities : Similarities)
    (candidates : List Candidate) (nodes : List ExpandedNode) (tokenBudget : ℤ) :
    Except String (List Candidate) := do
  let fused ← directCandidates host query.toFusionQuery similarities candidates
  return selectEvidence (selectionPool (fused ++ expanded host query fused nodes)) tokenBudget
    (some 2)

/-! ### What stays distinct -/

section Distinct

variable {l evidence fused direct added : List Candidate} {c d : Candidate}

/-- No two items have one id, or one content. -/
structure Distinct (evidence : List Candidate) : Prop where
  ids : evidence.Pairwise fun c d => c.id ≠ d.id
  contents : evidence.Pairwise fun c d => c.contentHash ≠ "" → c.contentHash ≠ d.contentHash

/-- The evidence is distinct, and no candidate is in it that was fused and then removed. -/
structure NoDuplicates (fused direct evidence : List Candidate) : Prop extends
    Distinct evidence where
  removed : ∀ c ∈ fused, (∀ d ∈ direct, d.id ≠ c.id) → ∀ e ∈ evidence, e.id ≠ c.id

/-- The neighbours that are added are distinct, none has the id of a candidate that was fused, and
none the content of one that is there. -/
structure ExpansionFresh (fused direct added : List Candidate) : Prop extends Distinct added where
  removed : ∀ c ∈ fused, ∀ e ∈ added, e.id ≠ c.id
  kept : ∀ d ∈ direct, ∀ e ∈ added, e.contentHash ≠ "" → e.contentHash ≠ d.contentHash

lemma Distinct.sublist (h : Distinct l) (hsub : evidence.Sublist l) : Distinct evidence where
  ids := h.ids.sublist hsub
  contents := h.contents.sublist hsub

lemma NoDuplicates.sublist (h : NoDuplicates fused direct l) (hsub : evidence.Sublist l) :
    NoDuplicates fused direct evidence where
  toDistinct := h.toDistinct.sublist hsub
  removed c hc hgone e he := h.removed c hc hgone e (hsub.subset he)

lemma mergeGroup_ofContent {k : String} (h : mergeGroup (ofContent l k) = some c) :
    ∃ d ∈ l, d.contentKey = k ∧ c.id = d.id ∧ c.contentHash = d.contentHash := by
  obtain ⟨d, hd, -, rfl⟩ := mergeGroup_eq_some h
  refine ⟨d, List.mem_of_mem_filter (List.argmax_mem hd), (champion_of_argmax hd).1, rfl, rfl⟩

lemma contentKey_of_hash (h : c.contentHash ≠ "") (heq : c.contentHash = d.contentHash) :
    c.contentKey = d.contentKey := by
  rw [Candidate.contentKey, Candidate.contentKey, if_pos h, if_pos (heq ▸ h), heq]

lemma distinct_deduplicate
    (hkeys : ∀ c ∈ l, ∀ d ∈ l, c.id = d.id → c.contentKey = d.contentKey) :
    Distinct (deduplicate l) := by
  have hfirsts := nodup_firsts (l.map Candidate.contentKey)
  rw [deduplicate_eq]
  constructor
  · refine List.pairwise_filterMap.mpr (hfirsts.imp fun {k k'} hne s hs t ht hid => hne ?_)
    obtain ⟨c, hc, rfl, hcid, -⟩ := mergeGroup_ofContent hs
    obtain ⟨d, hd, rfl, hdid, -⟩ := mergeGroup_ofContent ht
    exact hkeys c hc d hd (by rw [← hcid, ← hdid, hid])
  · refine List.pairwise_filterMap.mpr (hfirsts.imp fun {k k'} hne s hs t ht hs' heq => hne ?_)
    obtain ⟨c, -, rfl, -, hc⟩ := mergeGroup_ofContent hs
    obtain ⟨d, -, rfl, -, hd⟩ := mergeGroup_ofContent ht
    exact contentKey_of_hash (hc ▸ hs') (by rw [← hc, ← hd, heq])

lemma noDuplicates_append_iff (hdirect : Distinct direct)
    (hnew : ∀ d ∈ direct, ∀ e ∈ added, d.id ≠ e.id) :
    NoDuplicates fused direct (direct ++ added) ↔ ExpansionFresh fused direct added := by
  constructor
  · intro h
    obtain ⟨-, hids, -⟩ := List.pairwise_append.mp h.ids
    obtain ⟨-, hcontents, hcross⟩ := List.pairwise_append.mp h.contents
    refine ⟨⟨hids, hcontents⟩, fun c hc e he hid => ?_, fun d hd e he hhash heq => ?_⟩
    · by_cases hgone : ∀ d ∈ direct, d.id ≠ c.id
      · exact h.removed c hc hgone e (List.mem_append_right _ he) hid
      · push Not at hgone
        obtain ⟨d, hd, hdc⟩ := hgone
        exact hnew d hd e he (hdc.trans hid.symm)
    · exact hcross d hd e he (heq ▸ hhash) heq.symm
  · intro h
    refine ⟨⟨?_, ?_⟩, fun c hc hgone e he => ?_⟩
    · exact List.pairwise_append.mpr ⟨hdirect.ids, h.ids, hnew⟩
    · refine List.pairwise_append.mpr ⟨hdirect.contents, h.contents, fun d hd e he hhash heq => ?_⟩
      exact h.kept d hd e he (heq ▸ hhash) heq.symm
    · rcases List.mem_append.mp he with he | he
      · exact hgone e he
      · exact h.removed c hc e he

end Distinct

section Loop

variable {host : Host} {query : ExpansionQuery} {fusedIds : List String} {seeds : Dict ℚ}
  {nodes : List ExpandedNode} {node : ExpandedNode} {c : Candidate}

lemma id_of_expandNode (h : expandNode host query seeds node = .ok (some c)) :
    c.id = node.cid := by
  simp only [expandNode, bind, Except.bind, pure, Except.pure] at h
  repeat' split at h
  all_goals first
    | cases h; rfl
    | cases h

lemma id_of_mem_expanded (h : c ∈ expandedFrom host query fusedIds seeds nodes) :
    c.id ∉ fusedIds := by
  induction nodes with
  | nil => cases h
  | cons node nodes ih =>
    rw [expandedFrom] at h
    split_ifs at h with hid
    · exact ih h
    · split at h
      · cases h
      · rename_i added hnode
        rcases List.mem_append.mp h with hc | hc
        · rw [Option.mem_toList.mp hc] at hnode
          rwa [id_of_expandNode hnode]
        · exact ih hc

end Loop

section Selected

variable {l : List Candidate} {s : Selection} {limit : Option ℕ} {tokenBudget : ℤ}

lemma selected_foldl (l : List Candidate) (s : Selection) :
    ∃ taken, taken.Sublist l ∧
      (l.foldl (Selection.take limit) s).selected = s.selected ++ taken := by
  induction l generalizing s with
  | nil => exact ⟨[], .slnil, (List.append_nil _).symm⟩
  | cons c l ih =>
    obtain ⟨taken, hsub, heq⟩ := ih (s.take limit c)
    rw [List.foldl_cons, heq, Selection.take]
    split_ifs
    · exact ⟨c :: taken, hsub.cons_cons c, List.append_assoc ..⟩
    · exact ⟨taken, hsub.cons c, rfl⟩

lemma selectEvidence_sublist : (selectEvidence l tokenBudget limit).Sublist l := by
  obtain ⟨taken, hsub, heq⟩ := @selected_foldl limit l ⟨[], tokenBudget, []⟩
  rw [selectEvidence, selectionAfter, heq]
  exact hsub

lemma selectionPool_sublist : (selectionPool l).Sublist l := by
  rw [selectionPool]
  split_ifs
  · exact List.filter_sublist
  · exact .refl _

/-- There is room for all: the budget holds their tokens, no source has more than two chunks, and
no untyped one stands beside a typed one. -/
structure Roomy (l : List Candidate) (tokenBudget : ℤ) : Prop where
  typed : (∀ c ∈ l, strip c.sourceType ≠ "") ∨ ∀ c ∈ l, strip c.sourceType = ""
  tokens : ∀ c ∈ l, 0 < c.tokenCount
  budget : (l.map Candidate.tokenCount).sum ≤ tokenBudget
  sources : ∀ source, (l.filter fun c => c.source = source).length ≤ 2

lemma selectionPool_of_alike
    (h : (∀ c ∈ l, strip c.sourceType ≠ "") ∨ ∀ c ∈ l, strip c.sourceType = "") :
    selectionPool l = l := by
  rcases h with h | h
  · have htyped : (l.filter fun c => strip c.sourceType ≠ "") = l :=
      List.filter_eq_self.mpr fun c hc => by simpa using h c hc
    rw [selectionPool, htyped, if_neg fun hmixed => lt_irrefl _ hmixed.2]
  · have huntyped : (l.filter fun c => strip c.sourceType ≠ "") = [] :=
      List.filter_eq_nil_iff.mpr fun c hc => by simpa using h c hc
    rw [selectionPool, huntyped, if_neg fun hmixed => hmixed.1 rfl]

lemma selected_of_room (htokens : ∀ c ∈ l, 0 < c.tokenCount)
    (hbudget : (l.map Candidate.tokenCount).sum ≤ s.remaining)
    (hsources : ∀ source, (s.sourceCounts.get? source).getD 0 +
      (l.filter fun c => c.source = source).length ≤ 2) :
    (l.foldl (Selection.take (some 2)) s).selected = s.selected ++ l := by
  induction l generalizing s with
  | nil => exact (List.append_nil _).symm
  | cons c l ih =>
    obtain ⟨hpos, htokens⟩ := List.forall_mem_cons.mp htokens
    have hrest : 0 ≤ (l.map Candidate.tokenCount).sum :=
      List.sum_nonneg fun n hn => by
        obtain ⟨d, hd, rfl⟩ := List.mem_map.mp hn
        exact (htokens d hd).le
    rw [List.map_cons, List.sum_cons] at hbudget
    have hfits : s.Fits (some 2) c := by
      refine ⟨hpos, by omega, fun n hn => ?_⟩
      cases hn
      have hcount := hsources c.source
      rw [List.filter_cons_of_pos (by simp), List.length_cons] at hcount
      omega
    rw [List.foldl_cons, Selection.take, if_pos hfits, ih htokens]
    · exact List.append_assoc ..
    · simp only
      omega
    · intro source
      have hcount := hsources source
      rw [Dict.get?_set]
      by_cases hsource : c.source = source
      · rw [List.filter_cons_of_pos (by simp [hsource]), List.length_cons] at hcount
        rw [if_pos hsource, Option.getD_some, hsource]
        omega
      · rw [List.filter_cons_of_neg (by simpa using hsource)] at hcount
        rwa [if_neg hsource]

lemma selectEvidence_of_room (h : Roomy l tokenBudget) :
    selectEvidence (selectionPool l) tokenBudget (some 2) = l := by
  rw [selectionPool_of_alike h.typed, selectEvidence, selectionAfter,
    selected_of_room h.tokens h.budget (by simpa [Dict.get?] using h.sources)]
  rfl

end Selected

section Evidence

variable {host : Host} {query : ExpansionQuery} {similarities : Similarities}
  {candidates fused direct : List Candidate} {nodes : List ExpandedNode}

lemma selectedEvidence_eq
    (h : directCandidates host query.toFusionQuery similarities candidates = .ok direct)
    (tokenBudget : ℤ) :
    selectedEvidence host query similarities candidates nodes tokenBudget =
      .ok (selectEvidence (selectionPool (direct ++ expanded host query direct nodes)) tokenBudget
        (some 2)) := by
  rw [selectedEvidence, h]
  rfl

/-- Where each id stands for one content, a fresh expansion leaves the evidence free of duplicates
whatever the budget; and where there is room for all, nothing less does. -/
theorem evidence_distinct
    (hfused : fuseCandidates host query.toFusionQuery candidates = .ok fused)
    (hkeys : ∀ c ∈ fused, ∀ d ∈ fused, c.id = d.id → c.contentKey = d.contentKey)
    (h : directCandidates host query.toFusionQuery similarities candidates = .ok direct) :
    (ExpansionFresh fused direct (expanded host query direct nodes) →
      ∀ tokenBudget evidence,
        selectedEvidence host query similarities candidates nodes tokenBudget = .ok evidence →
          NoDuplicates fused direct evidence) ∧
    ∀ tokenBudget evidence, Roomy (direct ++ expanded host query direct nodes) tokenBudget →
      selectedEvidence host query similarities candidates nodes tokenBudget = .ok evidence →
        (NoDuplicates fused direct evidence ↔
          ExpansionFresh fused direct (expanded host query direct nodes)) := by
  have hcollapsed : direct = collapseRedundant (deduplicate fused) similarities
      redundancyThreshold := by
    rw [directCandidates_eq hfused, Except.ok.injEq] at h
    exact h.symm
  have hdistinct : Distinct direct :=
    hcollapsed ▸ (distinct_deduplicate hkeys).sublist collapse_sublist
  have hnew : ∀ d ∈ direct, ∀ e ∈ expanded host query direct nodes, d.id ≠ e.id := by
    intro d hd e he hid
    exact id_of_mem_expanded he (hid ▸ List.mem_map_of_mem hd)
  have hiff := @noDuplicates_append_iff fused _ _ hdistinct hnew
  refine ⟨fun hfresh tokenBudget evidence hevidence => ?_, fun tokenBudget evidence hroom hevidence
    => ?_⟩
  · rw [selectedEvidence_eq h, Except.ok.injEq] at hevidence
    rw [← hevidence]
    exact (hiff.mpr hfresh).sublist (selectEvidence_sublist.trans selectionPool_sublist)
  · rw [selectedEvidence_eq h, selectEvidence_of_room hroom, Except.ok.injEq] at hevidence
    rw [← hevidence]
    exact hiff

end Evidence

/-! ### A candidate that comes back -/

def graphQuery : ExpansionQuery := { toFusionQuery := plainQuery }

/-- Two hits of one content; the second is removed. -/
def twins : List Candidate := [hit "a" "x" .derived 0, hit "b" "x" .derived 1]

def neighbour (id contentHash : String) : ExpandedNode where
  canonicalId := id
  properties := [("text", "note"), ("content_hash", contentHash)]
  originSeed := "a"
  relType := "DEFINES"

lemma fuse_twins : fuseCandidates indexHost plainQuery twins =
    .ok [scored "a" "x" .derived 0, scored "b" "x" .derived 1] := by
  have hscored : twins.mapM (scoreCandidate indexHost plainQuery) =
      .ok [some (scored "a" "x" .derived 0), some (scored "b" "x" .derived 1)] := by
    simp [twins, scoreCandidate_hit, bind, Except.bind, pure, Except.pure]
  rw [fuseCandidates, hscored]
  refine congrArg Except.ok (List.mergeSort_of_pairwise ?_)
  decide +kernel

/-- The first of the twins, with the provenance of both. -/
def survivingTwin : Candidate := { scored "a" "x" .derived 0 with provenance := ["a", "b"] }

lemma direct_twins : directCandidates indexHost plainQuery [] twins = .ok [survivingTwin] := by
  rw [directCandidates_eq fuse_twins, collapse_nil]
  rfl

def returned (id contentHash : String) : Candidate where
  id := id
  text := "note"
  contentHash := contentHash
  joinContentHash := "note"
  authority := .advisory
  locator := id
  tokenCount := 1
  fusedScore := 1 / 60

lemma expandNode_neighbour {id contentHash : String} (hid : id ≠ "") :
    expandNode indexHost graphQuery [("a", 1 / 60)] (neighbour id contentHash) =
      .ok (some (returned id contentHash)) := by
  have htokens : estimateTokens "note" = 1 := by decide +kernel
  simp [expandNode, neighbour, graphQuery, plainQuery, ExpandedNode.cid, hid, Dict.get?,
    freshnessMultiplier, resolveSourceType, sourceTypeOf, candidateAllowed, sourceTypeAllowed,
    scopeExcluded, aclExcluded, normalizeSharedRepositoryIds, rawShared, indexHost, strip,
    relationshipWeight, relationshipWeights, graphBoost, bind, Except.bind, pure, Except.pure,
    returned, htokens]

lemma expanded_twins {id contentHash : String} (hid : id ≠ "") (hnew : id ≠ "a") :
    expanded indexHost graphQuery [survivingTwin] [neighbour id contentHash] =
      [returned id contentHash] := by
  have hseeds : seedScores 12 [survivingTwin] = [("a", 1 / 60)] := by
    simp [seedScores, survivingTwin, scored, hit, Dict.set, Dict.get?, authorityMultiplier]
  have hcid : (neighbour id contentHash).cid = id := by simp [ExpandedNode.cid, neighbour, hid]
  rw [expanded, show graphQuery.seedCount = 12 from rfl, hseeds, expandedFrom, hcid,
    if_neg (by simpa [survivingTwin, scored, hit] using hnew), expandNode_neighbour hid]
  rfl

lemma roomy_twins (id contentHash : String) :
    Roomy [survivingTwin, returned id contentHash] 8 where
  typed := .inr (by simp [survivingTwin, scored, hit, returned, strip])
  tokens := by simp [survivingTwin, scored, hit, returned]
  budget := by simp [survivingTwin, scored, hit, returned]
  sources source := (List.length_filter_le _ _).trans (by simp)

lemma evidence_twins {id contentHash : String} (hid : id ≠ "") (hnew : id ≠ "a") :
    selectedEvidence indexHost graphQuery [] twins [neighbour id contentHash] 8 =
      .ok [survivingTwin, returned id contentHash] := by
  rw [selectedEvidence_eq direct_twins, expanded_twins hid hnew]
  exact congrArg Except.ok (selectEvidence_of_room (roomy_twins id contentHash))

/-- The twin that was removed comes back as a neighbour, with the content of the other one. -/
theorem twin_returns : ∃ direct evidence,
    directCandidates indexHost plainQuery [] twins = .ok direct ∧
    selectedEvidence indexHost graphQuery [] twins [neighbour "b" "x"] 8 = .ok evidence ∧
      (∀ d ∈ direct, d.id ≠ "b") ∧ (∃ e ∈ evidence, e.id = "b") ∧ ¬ Distinct evidence := by
  refine ⟨_, _, direct_twins, evidence_twins (by decide) (by decide), ?_, ?_, fun h => ?_⟩
  · simp [survivingTwin, scored, hit]
  · exact ⟨returned "b" "x", by simp, rfl⟩
  · have hcontents := List.rel_of_pairwise_cons h.contents (List.mem_singleton_self _)
    exact hcontents (by decide) rfl

/-- A neighbour with an id and a content of its own is no duplicate. -/
theorem stranger_added : ∃ evidence,
    selectedEvidence indexHost graphQuery [] twins [neighbour "c" "z"] 8 = .ok evidence ∧
      NoDuplicates [scored "a" "x" .derived 0, scored "b" "x" .derived 1] [survivingTwin]
        evidence := by
  refine ⟨_, evidence_twins (by decide) (by decide), ?_⟩
  refine (@evidence_distinct indexHost graphQuery [] twins _ _ [neighbour "c" "z"] fuse_twins ?_
    direct_twins).1 ?_ 8 _ (evidence_twins (by decide) (by decide))
  · simp [scored, hit, Candidate.contentKey]
  · rw [expanded_twins (by decide) (by decide)]
    constructor
    · exact ⟨List.pairwise_singleton _ _, List.pairwise_singleton _ _⟩
    · simp [scored, hit, returned]
    · simp [survivingTwin, scored, hit, returned]

end AgenticDynamics.Knowledge.Retrieval
