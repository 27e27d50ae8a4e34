import Mathlib.Data.List.MinMax
import Mathlib.Data.Prod.Lex
import AgenticDynamics.Library.Accumulate
import AgenticDynamics.Library.StableSort
import AgenticDynamics.Context.Facts

/-!
# Evidence fusion

What the two legs of a retrieval bring is scored and put in order, candidates of one content are
merged, near-duplicates are collapsed, and whole chunks are taken greedily under a token budget.

Scores are rational numbers.
-/

namespace AgenticDynamics.Knowledge.Retrieval

open Python StableSort

open Context (Authority)

/-! ### Candidates -/

structure Candidate where
  id : String
  text : String
  contentHash : String
  authority : Authority
  locator : String
  commitSha : String := ""
  repositoryId : String := ""
  observedAt : Option String := none
  lexicalRank : Option ℕ := none
  denseRank : Option ℕ := none
  exactIdentifierMatch : Bool := false
  conflict : Bool := false
  graphDepth : ℕ := 0
  graphPath : List String := []
  relationshipWeight : ℚ := 1
  tokenCount : ℤ := 0
  provenance : List String := []
  fusedScore : ℚ := 0
  sourceType : String := ""
  patternPayload : Option (Dict Json) := none
  evidenceClass : String := ""
  joinContentHash : String := ""

def Candidate.isPattern (c : Candidate) : Bool :=
  c.sourceType = "pattern" || c.patternPayload.isSome

/-- Authority, and the freshness that breaks its ties. -/
def Candidate.standing (c : Candidate) : Authority ×ₗ String :=
  toLex (c.authority, c.observedAt.getD "")

inductive QueryShape
  | findings
  | code
  | neutral
  deriving DecidableEq

inductive Bucket
  | evidence
  | advisory
  | code
  | untyped
  deriving DecidableEq

/-! ### Scores -/

def rrfBase (lexicalRank denseRank : Option ℕ) : ℚ :=
  lexicalRank.elim 0 (fun rank => (12 / 10 : ℚ) / (60 + (rank : ℚ))) +
    denseRank.elim 0 (fun rank => (1 : ℚ) / (60 + (rank : ℚ)))

def parseTimestamp (host : Host) (value : String) : Option DateTime :=
  if value = "" then none
  else if value.toList.getLast? = some 'Z' then
    host.fromisoformat (String.ofList value.toList.dropLast ++ "+00:00")
  else host.fromisoformat value

/-- `(now - observed).days`, a naive time taken as UTC. -/
def ageDays (now observed : DateTime) : ℤ := (now.micros - observed.micros) / 86400000000

/-- The freshness of a candidate; none excludes it. -/
def freshnessMultiplier (host : Host) (authority : Authority) (commitSha : String)
    (observedAt : Option String) (currentCommit : String) (now : DateTime) : Option ℚ :=
  if authority = .policy then none
  else if currentCommit ≠ "" ∧ authority = .source ∧ commitSha ≠ "" ∧ commitSha ≠ currentCommit then
    none
  else if currentCommit ≠ "" ∧ commitSha ≠ "" ∧ commitSha = currentCommit then some (11 / 10)
  else if authority = .source ∨ authority = .measured ∨ authority = .derived then some 1
  else match observedAt.bind (parseTimestamp host) with
    | none => some (3 / 4)
    | some observed =>
      if ageDays now observed ≤ 30 then some (9 / 10)
      else if ageDays now observed ≤ 90 then some (3 / 4)
      else none

def authorityMultiplier : Authority → ℚ
  | .source   => 115 / 100
  | .measured => 105 / 100
  | .derived  => 1
  | .advisory => 8 / 10
  | .policy   => 1

/-- The factor of a pattern's uncertainty. An integer beyond the floats is the one value that the
code does not catch. -/
def patternUncertaintyMultiplier (host : Host) (uncertainty : Option Json) : Except String ℚ :=
  match uncertainty with
  | none       => .ok 1
  | some .null => .ok 1
  | some value =>
    match value.toFloat host.toRuntime with
    | .ok (.finite q) => .ok (max 0 (1 - min 1 (max 0 q)))
    | .ok _           => .ok 1
    | .error e        => if e = "OverflowError" then .error e else .ok 1

def computeFusedScore (host : Host) (c : Candidate) (freshness : ℚ) (exact : Bool) :
    Except String ℚ := do
  let uncertainty ← patternUncertaintyMultiplier host
    (if c.isPattern then c.patternPayload.bind (Dict.get? "uncertainty") else none)
  return rrfBase c.lexicalRank c.denseRank *
    (authorityMultiplier c.authority * freshness * (if exact then 115 / 100 else 1) *
      (if c.conflict then 7 / 10 else 1) * uncertainty)

/-- `term in text`. -/
def occursIn (term text : String) : Bool := text.toList.tails.any term.toList.isPrefixOf

/-- A quoted path, symbol, error or test name names the candidate. -/
def exactIdentifierHit (host : Host) (c : Candidate) (exactTerms : List String) : Bool :=
  let text := host.lower c.text
  let locator := host.lower c.locator
  exactTerms.any fun term =>
    let t := host.lower term
    t ≠ "" && (t ∈ [locator, host.lower c.id, text] ||
      ((occursIn "/" t || occursIn "." t || occursIn "_" t) &&
        (occursIn t locator || occursIn t text)))

def sourceOrderingBucket (host : Host) (sourceType evidenceClass : String) : Bucket :=
  let st := host.lower (strip sourceType)
  if st = "" then .untyped
  else if st = "code" then .code
  else
    let ec := host.upper (strip evidenceClass)
    if startsWith ec "[M]" ∨ startsWith ec "[C]" ∨ startsWith ec "[P]" then .evidence else .advisory

def sourceTypePrior (bucket : Bucket) : Option QueryShape → ℚ
  | some .findings =>
    match bucket with
    | .evidence => 16 / 10
    | .advisory => 14 / 10
    | .code     => 1
    | .untyped  => 1
  | some .code => if bucket = .code then 1 else 85 / 100
  | _ => 1

def orderingTiebreakTier (bucket : Bucket) : Option QueryShape → ℕ
  | some .findings =>
    match bucket with
    | .evidence => 0
    | .advisory => 1
    | .code     => 2
    | .untyped  => 3
  | some .code =>
    match bucket with
    | .code     => 0
    | .evidence => 1
    | .advisory => 2
    | .untyped  => 3
  | _ => if bucket = .untyped then 2 else 1

/-! ### Fusion -/

structure FusionQuery where
  exactTerms : List String
  currentCommit : String := ""
  now : DateTime
  queryShape : Option QueryShape := none

def scoreCandidate (host : Host) (query : FusionQuery) (c : Candidate) :
    Except String (Option Candidate) :=
  match freshnessMultiplier host c.authority c.commitSha c.observedAt query.currentCommit
      query.now with
  | none => .ok none
  | some freshness => do
    let exact := exactIdentifierHit host c query.exactTerms
    let prior := sourceTypePrior (sourceOrderingBucket host c.sourceType c.evidenceClass)
      query.queryShape
    let score ← computeFusedScore host c freshness exact
    return some { c with fusedScore := score * prior, exactIdentifierMatch := exact }

/-- What candidates are ordered by: the score, and the tier of their kind where it is the same. -/
def fusionKey (host : Host) (query : FusionQuery) (c : Candidate) : ℚ ×ₗ ℕ :=
  toLex (-c.fusedScore,
    orderingTiebreakTier (sourceOrderingBucket host c.sourceType c.evidenceClass) query.queryShape)

def fuseCandidates (host : Host) (query : FusionQuery) (candidates : List Candidate) :
    Except String (List Candidate) := do
  let scored ← candidates.mapM (scoreCandidate host query)
  return sortBy (fusionKey host query) scored.reduceOption

/-! ### Duplicates -/

/-- What identifies the content of a candidate. -/
def Candidate.contentKey (c : Candidate) : String :=
  if c.contentHash ≠ "" then c.contentHash else c.id

def dedupeInOrder (items : List String) : List String := firsts items

/-- The candidates of one content: the one of the highest standing, with the provenance of all. -/
def mergeGroup (group : List Candidate) : Option Candidate :=
  match group with
  | [c] => some c
  | _   => (group.argmax Candidate.standing).map fun survivor =>
    { survivor with
      provenance := dedupeInOrder (group.flatMap fun c =>
        (if c.locator ≠ "" then [c.locator] else []) ++ c.provenance) }

/-- The candidates by their content, in the order in which the contents are met. -/
def contentGroups (candidates : List Candidate) : Dict (List Candidate) :=
  Dict.accumulate Candidate.contentKey (fun group c => group.getD [] ++ [c]) candidates

def deduplicate (candidates : List Candidate) : List Candidate :=
  (contentGroups candidates).filterMap fun group => mergeGroup group.2

/-! ### Near-duplicates -/

abbrev Similarities := List ((String × String) × PyFloat)

def Similarities.get? (s : Similarities) (a b : String) : Option PyFloat :=
  (s.find? fun entry => entry.1 = (a, b)).map Prod.snd

/-- The similarity of two candidates, the first of which stands earlier. -/
def similarity (similarities : Similarities) (a b : Candidate) : PyFloat :=
  match similarities.get? a.id b.id with
  | some sim => sim
  | none     => (similarities.get? b.id a.id).getD (.finite 0)

/-- One comparison of the inner loop, and the ids that are dropped after it. -/
def compareWith (similarities : Similarities) (threshold : PyFloat) (a : Candidate)
    (dropped : List String) (b : Candidate) : List String :=
  if b.id ∈ dropped then dropped
  else if threshold.lt (similarity similarities a b) then
    if a.conflict ∨ b.conflict then dropped
    else if b.standing ≤ a.standing then b.id :: dropped
    else a.id :: dropped
  else dropped

def droppedFrom (similarities : Similarities) (threshold : PyFloat) :
    List Candidate → List String → List String
  | [], dropped        => dropped
  | a :: rest, dropped =>
    droppedFrom similarities threshold rest
      (if a.id ∈ dropped then dropped
      else rest.foldl (compareWith similarities threshold a) dropped)

def collapseRedundant (candidates : List Candidate) (similarities : Similarities)
    (threshold : PyFloat) : List Candidate :=
  let dropped := droppedFrom similarities threshold candidates []
  candidates.filter fun c => c.id ∉ dropped

def redundancyThreshold : PyFloat := .finite (92 / 100)

/-- What fusion, deduplication and collapse leave of the candidates of the two legs. -/
def directCandidates (host : Host) (query : FusionQuery) (similarities : Similarities)
    (candidates : List Candidate) : Except String (List Candidate) := do
  let fused ← fuseCandidates host query candidates
  return collapseRedundant (deduplicate fused) similarities redundancyThreshold

/-! ### Selection -/

/-- What has been selected, the tokens that remain, and how often each source was used. -/
structure Selection where
  selected : List Candidate
  remaining : ℤ
  sourceCounts : Dict ℕ

def Candidate.source (c : Candidate) : String := if c.locator ≠ "" then c.locator else c.id

/-- The candidate is taken: it fits into what remains, and its source is not used up. -/
def Selection.Fits (maxChunksPerSource : Option ℕ) (s : Selection) (c : Candidate) : Prop :=
  0 < c.tokenCount ∧ c.tokenCount ≤ s.remaining ∧
    ∀ limit ∈ maxChunksPerSource, (s.sourceCounts.get? c.source).getD 0 < limit

instance (limit : Option ℕ) (s : Selection) (c : Candidate) : Decidable (s.Fits limit c) :=
  inferInstanceAs (Decidable (_ ∧ _ ∧ _))

def Selection.take (maxChunksPerSource : Option ℕ) (s : Selection) (c : Candidate) : Selection :=
  if s.Fits maxChunksPerSource c then
    { selected := s.selected ++ [c]
      remaining := s.remaining - c.tokenCount
      sourceCounts := s.sourceCounts.set c.source ((s.sourceCounts.get? c.source).getD 0 + 1) }
  else s

/-- The state of the selection after some candidates. -/
def selectionAfter (tokenBudget : ℤ) (maxChunksPerSource : Option ℕ)
    (candidates : List Candidate) : Selection :=
  candidates.foldl (Selection.take maxChunksPerSource) ⟨[], tokenBudget, []⟩

def selectEvidence (candidates : List Candidate) (tokenBudget : ℤ)
    (maxChunksPerSource : Option ℕ) : List Candidate :=
  (selectionAfter tokenBudget maxChunksPerSource candidates).selected

end AgenticDynamics.Knowledge.Retrieval
