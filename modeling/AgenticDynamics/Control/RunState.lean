import Mathlib.Data.Fintype.Basic
import Mathlib.Data.Finset.Basic
import AgenticDynamics.Library.Ledger

/-!
# The run vocabulary

The twelve states of a run, the graph of moves between them, and the states of a step attempt.
The graph is composed the way the code composes it: forward edges, plus the abnormal exits.
-/

namespace AgenticDynamics.Control

/-! ### Run states -/

inductive RunState
  | queued
  | running
  | awaitingApproval
  | verifying
  | promotable
  | promoting
  | merged
  | projecting
  | published
  | failed
  | cancelled
  | quarantined
  deriving DecidableEq, Repr

namespace RunState

def value : RunState → String
  | queued           => "queued"
  | running          => "running"
  | awaitingApproval => "awaiting_approval"
  | verifying        => "verifying"
  | promotable       => "promotable"
  | promoting        => "promoting"
  | merged           => "merged"
  | projecting       => "projecting"
  | published        => "published"
  | failed           => "failed"
  | cancelled        => "cancelled"
  | quarantined      => "quarantined"

/-- Every member, in the order of the class body. -/
def members : List RunState :=
  [queued, running, awaitingApproval, verifying, promotable, promoting, merged, projecting,
    published, failed, cancelled, quarantined]

/-- `RunState(text)`. -/
def ofValue? (text : String) : Option RunState := members.find? fun s => s.value = text

lemma mem_members (s : RunState) : s ∈ members := by cases s <;> decide

instance : Fintype RunState := ⟨members.toFinset, fun s => List.mem_toFinset.mpr (mem_members s)⟩

end RunState

/-- The states from which nothing may follow. -/
def terminalRunStates : Finset RunState := {.published, .failed, .cancelled, .quarantined}

/-- The happy sequence, one hop at a time. -/
def forwardTransitions : RunState → Finset RunState
  | .queued           => {.running}
  | .running          => {.awaitingApproval, .verifying, .promotable}
  | .awaitingApproval => {.running, .verifying}
  | .verifying        => {.running, .awaitingApproval, .promotable}
  | .promotable       => {.promoting}
  | .promoting        => {.merged}
  | .merged           => {.projecting}
  | .projecting       => {.published}
  | _                 => ∅

/-- The states in which the work has not yet landed on main. -/
def preMerge : Finset RunState :=
  {.queued, .running, .awaitingApproval, .verifying, .promotable, .promoting}

/-- Forward edges plus the abnormal exits; a terminal state has no edges at all. -/
def buildAllowedTransitions (state : RunState) : Finset RunState :=
  if state ∈ terminalRunStates then ∅
  else
    let allowed := forwardTransitions state ∪ {.failed, .quarantined}
    if state ∈ preMerge then insert .cancelled allowed else allowed

/-- `state` to the states it may move to. -/
def allowedTransitions : RunState → Finset RunState := buildAllowedTransitions

def creationStates : Finset RunState := {.queued, .running}

/-! ### The graph as a relation -/

/-- The lifecycle a run's ledger has to record. -/
abbrev Lifecycle : List (Option RunState × RunState) → RunState → Prop :=
  Ledger (· ∈ creationStates) fun s t => t ∈ allowedTransitions s

/-- The states that a run cannot leave once it is on main. -/
def postMerge : Finset RunState := {.merged, .projecting, .published, .failed, .quarantined}

lemma not_terminal_of_allowed (s t : RunState) (h : t ∈ allowedTransitions s) :
    s ∉ terminalRunStates := by
  revert h
  revert s t
  decide

lemma postMerge_closed (s t : RunState) (hs : s ∈ postMerge) (h : t ∈ allowedTransitions s) :
    t ∈ postMerge := by
  revert hs h
  revert s t
  decide

lemma unique_predecessors :
    (∀ s, .published ∈ allowedTransitions s → s = .projecting) ∧
    (∀ s, .projecting ∈ allowedTransitions s → s = .merged) ∧
    (∀ s, .merged ∈ allowedTransitions s → s = .promoting) ∧
    ∀ s, .promoting ∈ allowedTransitions s → s = .promotable := by
  decide

lemma Lifecycle.published_path {rows : List (Option RunState × RunState)}
    (h : Lifecycle rows .published) :
    [.promotable, .promoting, .merged, .projecting, .published] <:+ rows.map Prod.snd := by
  obtain ⟨hpub, hproj, hmerged, hpromoting⟩ := unique_predecessors
  obtain ⟨rows₁, rfl, h₁⟩ := Ledger.of_unique_pred h hpub (by decide)
  obtain ⟨rows₂, rfl, h₂⟩ := h₁.of_unique_pred hproj (by decide)
  obtain ⟨rows₃, rfl, h₃⟩ := h₂.of_unique_pred hmerged (by decide)
  obtain ⟨rows₄, rfl, h₄⟩ := h₃.of_unique_pred hpromoting (by decide)
  have hlast := h₄.getLast
  obtain ⟨⟨f, t⟩, hrow, ht⟩ := Option.map_eq_some_iff.mp hlast
  obtain ⟨rows₅, rfl⟩ := List.getLast?_eq_some_iff.mp hrow
  refine ⟨rows₅.map Prod.snd, ?_⟩
  simp only [List.map_append, List.map_cons, List.map_nil, List.append_assoc, List.cons_append,
    List.nil_append] at ht ⊢
  rw [ht]

lemma Lifecycle.not_cancelled_after_merged {rows : List (Option RunState × RunState)}
    {s : RunState} (h : Lifecycle rows s) :
    rows.Pairwise fun a b => a.2 = .merged → b.2 ≠ .cancelled := by
  refine (Ledger.pairwise_of_closed h (K := (· ∈ postMerge)) postMerge_closed).imp ?_
  intro a b hab ha hb
  have hpost := hab (by rw [ha]; decide)
  rw [hb] at hpost
  exact absurd hpost (by decide)

/-! ### Attempt states -/

inductive AttemptState
  | queued
  | running
  | ok
  | failed
  | awaiting
  | skipped
  | cancelled
  deriving DecidableEq, Repr

namespace AttemptState

def value : AttemptState → String
  | queued    => "queued"
  | running   => "running"
  | ok        => "ok"
  | failed    => "failed"
  | awaiting  => "awaiting"
  | skipped   => "skipped"
  | cancelled => "cancelled"

/-- Every member, in the order of the class body. -/
def members : List AttemptState := [queued, running, ok, failed, awaiting, skipped, cancelled]

/-- `AttemptState(text)`. -/
def ofValue? (text : String) : Option AttemptState := members.find? fun s => s.value = text

end AttemptState

/-- An attempt in one of these has produced its outcome. -/
def terminalAttemptStates : Finset AttemptState :=
  {.ok, .failed, .awaiting, .skipped, .cancelled}

end AgenticDynamics.Control
