import AgenticDynamics.Library.Accumulate
import AgenticDynamics.Library.Toposort

/-!
# The DAG of a compiled experiment

The phases of an experiment and the edges between them, sorted over the forward edges.
-/

namespace AgenticDynamics.Experiment

open Python Toposort

structure Phase where
  name : String
  kind : String

structure DAG where
  phases : List Phase
  edges : List (String × String) := []
  feedback : List (String × String) := []

namespace DAG

/-- `indeg` and `adj`. -/
structure Links where
  indeg : String → ℕ := fun _ => 0
  adj : String → List String := fun _ => []

/-- The names of the phases, which are the keys of both dictionaries. -/
def names (dag : DAG) : List String := dag.phases.map Phase.name

/-- The loop over the edges; `adj[src]` or `indeg[dst]` raises the key that is no phase. -/
def link (names : List String) : List (String × String) → Links → Except String Links
  | [], links => .ok links
  | (src, dst) :: rest, links =>
    if src ∉ names then .error src
    else if dst ∉ names then .error dst
    else link names rest
      { indeg := Function.update links.indeg dst (links.indeg dst + 1)
        adj := Function.update links.adj src (links.adj src ++ [dst]) }

/-- The run of `topological_order` for at most as many turns of its loop: the order and what the
queue still holds. An in-degree counts the edges not yet followed, so it is never below zero. -/
def sort (dag : DAG) (turns : ℕ) : Except String (List String × List String) := do
  let links ← link dag.names dag.edges {}
  return walk links.adj turns ((firsts dag.names).filter fun name => links.indeg name = 0)
    links.indeg []

/-- `topological_order`: every turn takes a phase off the queue, and each enters it at most once. -/
def topologicalOrder (dag : DAG) : Except String (List String) :=
  (dag.sort dag.names.length).map Prod.fst

def Edge (dag : DAG) (src dst : String) : Prop := (src, dst) ∈ dag.edges

/-- The phases that a phase waits for, once for each edge. -/
def sources (dag : DAG) (name : String) : List String :=
  (dag.edges.filter fun e => e.2 = name).map Prod.fst

def targets (dag : DAG) (name : String) : List String :=
  (dag.edges.filter fun e => e.1 = name).map Prod.snd

variable {dag : DAG}

lemma mem_sources {src dst : String} : src ∈ dag.sources dst ↔ dag.Edge src dst := by
  simp [sources, Edge]

lemma link_eq {names : List String} {edges : List (String × String)} {links : Links}
    (h : ∀ e ∈ edges, e.1 ∈ names ∧ e.2 ∈ names) :
    link names edges links = .ok
      { indeg := fun n => links.indeg n + ((edges.filter fun e => e.2 = n).map Prod.fst).length
        adj := fun n => links.adj n ++ (edges.filter fun e => e.1 = n).map Prod.snd } := by
  induction edges generalizing links with
  | nil => simp [link]
  | cons e rest ih =>
    obtain ⟨hhead, hrest⟩ := List.forall_mem_cons.mp h
    rw [link, if_neg (not_not.mpr hhead.1), if_neg (not_not.mpr hhead.2), ih hrest]
    congr 2
    · funext n
      by_cases hn : e.2 = n
      · subst hn
        simp
        omega
      · simp [hn, Ne.symm hn]
    · funext n
      by_cases hn : e.1 = n
      · subst hn
        simp
      · simp [hn, Ne.symm hn]

lemma links_eq (hedges : ∀ e ∈ dag.edges, e.1 ∈ dag.names ∧ e.2 ∈ dag.names) :
    link dag.names dag.edges {} =
      .ok { indeg := fun n => (dag.sources n).length, adj := dag.targets } := by
  rw [link_eq hedges]
  congr 2
  funext n
  exact Nat.zero_add _

lemma link_error {names : List String} {edges : List (String × String)} {links links' : Links}
    (h : link names edges links = .ok links') : ∀ e ∈ edges, e.1 ∈ names ∧ e.2 ∈ names := by
  induction edges generalizing links with
  | nil => simp
  | cons e rest ih =>
    rw [link] at h
    split_ifs at h with hsrc hdst
    exact List.forall_mem_cons.mpr ⟨⟨hsrc, hdst⟩, ih h⟩

lemma children_targets (hedges : ∀ e ∈ dag.edges, e.1 ∈ dag.names ∧ e.2 ∈ dag.names) :
    Children (firsts dag.names) dag.sources dag.targets := by
  intro node n
  have hcount : (dag.targets node).count n = (dag.sources n).count node := by
    simp only [targets, sources, List.count, List.countP_map, List.countP_filter]
    apply List.countP_congr
    intro e _
    simp [and_comm]
  rw [hcount]
  split_ifs with hn
  · rfl
  · refine List.count_eq_zero.mpr fun hmem => hn (mem_firsts.mpr ?_)
    exact (hedges _ (mem_sources.mp hmem)).2

/-- The run comes to an empty queue, and to an order in which nothing stands before what it waits
for. -/
lemma sort_spec {result : List String × List String} {turns : ℕ}
    (hturns : dag.names.length ≤ turns) (h : dag.sort turns = .ok result) :
    result.2 = [] ∧
      ∃ indegree, Progress (firsts dag.names) dag.sources indegree [] result.1 := by
  simp only [sort, bind_eq_ok] at h
  obtain ⟨links, hlinks, h⟩ := h
  have hedges := link_error hlinks
  rw [links_eq hedges] at hlinks
  cases hlinks
  cases h
  have hlength : (firsts dag.names).length ≤ turns :=
    ((nodup_firsts _).subperm fun _ hn => mem_firsts.mp hn).length_le.trans hturns
  exact walk_spec (children_targets hedges) (progress_start (nodup_firsts dag.names))
    (by simpa using hlength)

/-- The sort comes to its end on every graph. On one whose edges are between its phases and run in
no circle it gives each phase once, each after all that it depends on. -/
theorem topologicalOrder_spec (dag : DAG) :
    (∀ turns result, dag.names.length ≤ turns → dag.sort turns = .ok result → result.2 = []) ∧
      ((∀ src dst, dag.Edge src dst → src ∈ dag.names ∧ dst ∈ dag.names) →
        (∀ name, ¬ Relation.TransGen dag.Edge name name) →
        ∃ order, dag.topologicalOrder = .ok order ∧ order.Nodup ∧
          (∀ name, name ∈ order ↔ name ∈ dag.names) ∧
          ∀ before dst after, order = before ++ dst :: after →
            ∀ src, dag.Edge src dst → src ∈ before) := by
  refine ⟨fun turns result hturns h => (sort_spec hturns h).1, fun hedges hacyclic => ?_⟩
  have hsort : ∃ result, dag.sort dag.names.length = .ok result := by
    rw [sort, links_eq fun e he => hedges e.1 e.2 he]
    exact ⟨_, rfl⟩
  obtain ⟨result, hresult⟩ := hsort
  obtain ⟨-, indegree, hprogress⟩ := sort_spec le_rfl hresult
  have hperm := hprogress.perm (nodup_firsts _)
    (fun n _ src hsrc => mem_firsts.mpr (hedges _ _ (mem_sources.mp hsrc)).1)
    (fun n hn => hacyclic n (Relation.TransGen.mono (fun _ _ => mem_sources.mp) n n hn))
  refine ⟨result.1, by rw [topologicalOrder, hresult]; rfl, hprogress.nodup, fun name => ?_, ?_⟩
  · rw [hperm.mem_iff, mem_firsts]
  · intro before dst after hsplit src hedge
    exact hprogress.sorted before dst after hsplit src (mem_sources.mpr hedge)

lemma acyclic_of_lt {rank : String → ℕ} (h : ∀ src dst, dag.Edge src dst → rank src < rank dst)
    (name : String) : ¬ Relation.TransGen dag.Edge name name := by
  have hgrows : ∀ {a b}, Relation.TransGen dag.Edge a b → rank a < rank b := by
    intro a b hab
    induction hab with
    | single hedge => exact h _ _ hedge
    | tail _ hedge ih => exact ih.trans (h _ _ hedge)
  exact fun hcircle => lt_irrefl _ (hgrows hcircle)

end DAG

def PHASES : List String :=
  ["validate", "cells", "execute", "measure", "compare", "writeup", "adapt"]

/-- What `compile_spec` builds from a valid spec. -/
def compiledDag : DAG where
  phases := PHASES.map fun k => { name := k, kind := k }
  edges := PHASES.zip PHASES.tail
  feedback := [("adapt", "cells")]

/-- The compiled phases come in an order that their edges allow. -/
theorem compiledDag_order :
    ∃ order, compiledDag.topologicalOrder = .ok order ∧ order.Nodup ∧
      (∀ name, name ∈ order ↔ name ∈ compiledDag.names) ∧
      ∀ before dst after, order = before ++ dst :: after →
        ∀ src, compiledDag.Edge src dst → src ∈ before := by
  refine compiledDag.topologicalOrder_spec.2 (fun src dst hedge => ?_)
    (@DAG.acyclic_of_lt _ (fun name => PHASES.idxOf name) fun src dst hedge => ?_)
  · have hall : ∀ e ∈ compiledDag.edges, e.1 ∈ compiledDag.names ∧ e.2 ∈ compiledDag.names := by
      decide
    exact hall _ hedge
  · have hall : ∀ e ∈ compiledDag.edges, PHASES.idxOf e.1 < PHASES.idxOf e.2 := by decide
    exact hall _ hedge

end AgenticDynamics.Experiment
