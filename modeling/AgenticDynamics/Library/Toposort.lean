import Mathlib.Tactic

/-!
# Kahn's topological sort

Nodes that wait for nothing are ready, in a queue. The first one of them is done; whatever waited
for it alone becomes ready behind the others. What is done in the end is in an order in which each
node comes after all that it waits for.
-/

namespace Toposort

variable {α : Type} [DecidableEq α]

/-! ### The sort -/

section Sorting

variable (nodes : List α) (deps : α → List α)

/-- The nodes that wait for a node, once for each time that it is named. -/
def dependents (node : α) : List α :=
  nodes.flatMap fun n => ((deps n).filter (· = node)).map fun _ => n

/-- One node less is waited for, for each of the children. -/
def release : List α → (α → ℕ) → List α → (α → ℕ) × List α
  | [],            indegree, ready => (indegree, ready)
  | child :: rest, indegree, ready =>
    let indegree := Function.update indegree child (indegree child - 1)
    release rest indegree (if indegree child = 0 then ready ++ [child] else ready)

/-- The nodes that are done, and those that are left ready when the fuel is gone. -/
def loop : ℕ → List α → (α → ℕ) → List α → List α × List α
  | 0,        ready,         _,        ordered => (ordered, ready)
  | _ + 1,    [],            _,        ordered => (ordered, [])
  | fuel + 1, node :: ready, indegree, ordered =>
    let (indegree, ready) := release (dependents nodes deps node) indegree ready
    loop fuel ready indegree (ordered ++ [node])

/-- The same with the children of each node as a table has them. -/
def walk (children : α → List α) : ℕ → List α → (α → ℕ) → List α → List α × List α
  | 0,        ready,         _,        ordered => (ordered, ready)
  | _ + 1,    [],            _,        ordered => (ordered, [])
  | fuel + 1, node :: ready, indegree, ordered =>
    let (indegree, ready) := release (children node) indegree ready
    walk children fuel ready indegree (ordered ++ [node])

def kahn : List α × List α :=
  loop nodes deps nodes.length (nodes.filter fun n => (deps n).length = 0)
    (fun n => (deps n).length) []

end Sorting

variable {nodes : List α} {deps : α → List α} {ready ordered : List α} {indegree : α → ℕ}

lemma loop_eq_walk {fuel : ℕ} :
    loop nodes deps fuel ready indegree ordered =
      walk (dependents nodes deps) fuel ready indegree ordered := by
  induction fuel generalizing ready indegree ordered with
  | zero => rfl
  | succ fuel ih =>
    cases ready with
    | nil => rfl
    | cons node ready => exact ih

/-! ### One node -/

/-- The children of a node are the nodes that wait for it, each as often as it names it. -/
def Children (nodes : List α) (deps children : α → List α) : Prop :=
  ∀ node n, (children node).count n = if n ∈ nodes then (deps n).count node else 0

lemma count_dependents (hnodup : nodes.Nodup) : Children nodes deps (dependents nodes deps) := by
  intro node n
  induction nodes with
  | nil => rfl
  | cons m rest ih =>
    obtain ⟨hfresh, hrest⟩ := List.nodup_cons.mp hnodup
    have hhead : (((deps m).filter (· = node)).map fun _ => m).count n =
        if m = n then (deps m).count node else 0 := by
      have hfilter : ((deps m).filter (· = node)).length = (deps m).count node := by
        rw [List.count_eq_length_filter]
        rfl
      rw [List.map_const', List.count_replicate, hfilter]
      simp
    rw [dependents, List.flatMap_cons, List.count_append, hhead]
    change _ + (dependents rest deps node).count n = _
    rw [ih hrest]
    by_cases hsame : m = n
    · subst hsame
      simp [hfresh]
    · simp [hsame, Ne.symm hsame]

/-- What a release leaves: no node waits for the children any more, and those that waited for
nothing else are ready. -/
lemma release_spec {children : List α} (h : ∀ n, children.count n ≤ indegree n) :
    (release children indegree ready).1 = (fun n => indegree n - children.count n) ∧
      ∃ new, (release children indegree ready).2 = ready ++ new ∧ new.Nodup ∧
        ∀ n, n ∈ new ↔ 0 < children.count n ∧ indegree n = children.count n := by
  induction children generalizing indegree ready with
  | nil => exact ⟨by simp [release], [], by simp [release], List.nodup_nil, by simp⟩
  | cons child rest ih =>
    have hchild := h child
    rw [List.count_cons_self] at hchild
    have hrest : ∀ n, rest.count n ≤ Function.update indegree child (indegree child - 1) n := by
      intro n
      have hn := h n
      rw [Function.update_apply]
      split_ifs with hsame
      · subst hsame
        omega
      · rwa [List.count_cons_of_ne (Ne.symm hsame)] at hn
    obtain ⟨hindegree, new, hready, hnew, hmem⟩ := @ih
      (if Function.update indegree child (indegree child - 1) child = 0 then ready ++ [child]
        else ready) _ hrest
    have hlast := hrest child
    rw [Function.update_self] at hlast hready
    rw [release, Function.update_self]
    constructor
    · rw [Function.update_self] at hindegree
      rw [hindegree]
      funext n
      rw [Function.update_apply]
      split_ifs with hsame
      · subst hsame
        rw [List.count_cons_self]
        omega
      · rw [List.count_cons_of_ne (Ne.symm hsame)]
    · have hmem' (n : α) : n ∈ new ↔ 0 < rest.count n ∧
          (if n = child then indegree child - 1 else indegree n) = rest.count n := by
        rw [hmem, Function.update_apply]
      by_cases hzero : indegree child - 1 = 0
      · rw [if_pos hzero] at hready ⊢
        refine ⟨child :: new, by rw [hready, List.append_assoc]; rfl, ?_, fun n => ?_⟩
        · refine List.nodup_cons.mpr ⟨fun hin => ?_, hnew⟩
          have := (hmem' child).mp hin
          omega
        · rw [List.mem_cons, hmem']
          by_cases hsame : n = child
          · subst hsame
            rw [List.count_cons_self]
            simp only [true_or, true_iff]
            omega
          · simp only [hsame, false_or, if_false, List.count_cons_of_ne (Ne.symm hsame)]
      · rw [if_neg hzero] at hready ⊢
        refine ⟨new, hready, hnew, fun n => ?_⟩
        rw [hmem']
        by_cases hsame : n = child
        · subst hsame
          rw [if_pos rfl, List.count_cons_self]
          omega
        · simp only [hsame, if_false, List.count_cons_of_ne (Ne.symm hsame)]

/-! ### The whole run -/

/-- What holds before each node that is done. -/
structure Progress (nodes : List α) (deps : α → List α) (indegree : α → ℕ)
    (ready ordered : List α) : Prop where
  nodup : (ready ++ ordered).Nodup
  mem : ∀ n ∈ ready ++ ordered, n ∈ nodes
  waiting : ∀ n ∈ nodes, indegree n = ((deps n).filter (· ∉ ordered)).length
  free : ∀ n ∈ nodes, indegree n = 0 ↔ n ∈ ready ++ ordered
  sorted : ∀ before n after, ordered = before ++ n :: after → ∀ d ∈ deps n, d ∈ before

lemma length_filter_concat {l : List α} {node : α} (h : node ∉ ordered) :
    (l.filter (· ∉ ordered)).length =
      (l.filter (· ∉ ordered ++ [node])).length + l.count node := by
  induction l with
  | nil => rfl
  | cons a l ih =>
    by_cases hsame : a = node
    · subst hsame
      simp only [List.filter_cons, List.count_cons_self, h, not_false_eq_true, decide_true, if_true,
        List.length_cons, List.mem_append, List.mem_singleton, or_true, not_true_eq_false,
        decide_false, Bool.false_eq_true, if_false] at ih ⊢
      omega
    · rw [List.count_cons_of_ne hsame]
      by_cases hin : a ∈ ordered
      · simpa [List.filter_cons, hin, hsame] using ih
      · simp only [List.filter_cons, hin, hsame, List.mem_append, List.mem_singleton, or_self,
          not_false_eq_true, decide_true, if_true, List.length_cons] at ih ⊢
        omega

variable {children : α → List α}

lemma Progress.count_le (h : Progress nodes deps indegree ready ordered)
    (hchildren : Children nodes deps children) {node : α} (hnode : node ∉ ordered) (n : α) :
    (children node).count n ≤ indegree n := by
  rw [hchildren]
  split_ifs with hn
  · rw [h.waiting n hn, length_filter_concat hnode]
    omega
  · exact Nat.zero_le _

lemma Progress.step {node : α} (hchildren : Children nodes deps children)
    (h : Progress nodes deps indegree (node :: ready) ordered) :
    Progress nodes deps (release (children node) indegree ready).1
      (release (children node) indegree ready).2 (ordered ++ [node]) := by
  have hnode : node ∉ ordered := by
    have hfirst := List.nodup_append.mp h.nodup
    exact fun hin => hfirst.2.2 node List.mem_cons_self node hin rfl
  have hcount := h.count_le hchildren hnode
  obtain ⟨hindegree, new, hready, hnew, hmem⟩ := @release_spec α _ ready indegree _ hcount
  rw [hindegree, hready]
  have hmem' {n : α} (hin : n ∈ new) : n ∈ nodes ∧ n ∉ node :: ready ++ ordered := by
    obtain ⟨hpos, heq⟩ := (hmem n).mp hin
    rw [hchildren] at hpos
    split_ifs at hpos with hn
    · refine ⟨hn, fun hold => ?_⟩
      have hzero := (h.free n hn).mpr hold
      rw [heq, hchildren, if_pos hn] at hzero
      omega
    · omega
  have hperm : ((ready ++ new) ++ (ordered ++ [node])).Perm
      (new ++ (node :: ready ++ ordered)) := by
    rw [List.perm_iff_count]
    intro a
    simp only [List.count_append, List.count_cons, List.count_nil]
    omega
  constructor
  · rw [hperm.nodup_iff, List.nodup_append]
    exact ⟨hnew, h.nodup, fun a ha b hb hab => (hmem' ha).2 (hab ▸ hb)⟩
  · intro n hn
    rcases List.mem_append.mp (hperm.mem_iff.mp hn) with hin | hold
    · exact (hmem' hin).1
    · exact h.mem n hold
  · intro n hn
    have hwait := h.waiting n hn
    rw [length_filter_concat hnode] at hwait
    rw [hwait, hchildren, if_pos hn]
    omega
  · intro n hn
    rw [hperm.mem_iff, List.mem_append, hmem, ← h.free n hn]
    have := hcount n
    omega
  · intro before n after hsplit d hd
    rcases List.eq_nil_or_concat after with rfl | ⟨rest, last, rfl⟩
    · obtain ⟨rfl, hlast⟩ := List.append_inj' hsplit rfl
      obtain rfl := List.singleton_inj.mp hlast
      have hn := h.mem node (by simp)
      have hzero := (h.free node hn).mpr (by simp)
      rw [h.waiting node hn, List.length_eq_zero_iff, List.filter_eq_nil_iff] at hzero
      simpa using hzero d hd
    · have hinit : ordered = before ++ n :: rest := by
        rw [List.concat_eq_append, ← List.cons_append, ← List.append_assoc] at hsplit
        exact (List.append_inj' hsplit rfl).1
      exact h.sorted before n rest hinit d hd

lemma walk_spec (hchildren : Children nodes deps children) {fuel : ℕ}
    (h : Progress nodes deps indegree ready ordered)
    (hfuel : nodes.length ≤ fuel + ordered.length) :
    (walk children fuel ready indegree ordered).2 = [] ∧
      ∃ indegree', Progress nodes deps indegree' []
        (walk children fuel ready indegree ordered).1 := by
  induction fuel generalizing indegree ready ordered with
  | zero =>
    have hle : (ready ++ ordered).length ≤ nodes.length :=
      (List.subperm_of_subset h.nodup h.mem).length_le
    rw [List.length_append] at hle
    obtain rfl : ready = [] := List.length_eq_zero_iff.mp (by omega)
    exact ⟨rfl, indegree, h⟩
  | succ fuel ih =>
    cases ready with
    | nil => exact ⟨rfl, indegree, h⟩
    | cons node ready =>
      refine ih (h.step hchildren) ?_
      rw [List.length_append, List.length_singleton]
      omega

lemma progress_start (hnodup : nodes.Nodup) : Progress nodes deps (fun n => (deps n).length)
    (nodes.filter fun n => (deps n).length = 0) [] := by
  constructor
  · simpa using hnodup.filter _
  · intro n hn
    rw [List.append_nil] at hn
    exact List.mem_of_mem_filter hn
  · intro n _
    simp
  · intro n hn
    simp [hn]
  · intro before n after hsplit
    simp at hsplit

/-- The sort leaves nothing ready. What is done are nodes, each once, and each of them comes after
all that it waits for. -/
theorem kahn_spec (hnodup : nodes.Nodup) :
    (kahn nodes deps).2 = [] ∧ (kahn nodes deps).1.Nodup ∧ (kahn nodes deps).1 ⊆ nodes ∧
      ∀ before n after, (kahn nodes deps).1 = before ++ n :: after → ∀ d ∈ deps n, d ∈ before := by
  obtain ⟨hdone, indegree, h⟩ := walk_spec (count_dependents hnodup) (progress_start hnodup)
    (Nat.le_add_right _ _)
  rw [kahn, loop_eq_walk]
  exact ⟨hdone, h.nodup, fun n hn => h.mem n hn, h.sorted⟩

/-! ### Nodes in no circle -/

/-- Nodes that wait for nodes only, and in no circle, are all done. -/
theorem Progress.perm (h : Progress nodes deps indegree [] ordered) (hnodup : nodes.Nodup)
    (hclosed : ∀ n ∈ nodes, deps n ⊆ nodes)
    (hacyclic : ∀ n, ¬ Relation.TransGen (fun d n => d ∈ deps n) n n) : ordered.Perm nodes := by
  have hwf : WellFounded fun a b : {n // n ∈ nodes} =>
      Relation.TransGen (fun d n => d ∈ deps n) a.1 b.1 := by
    have htrans : IsTrans {n // n ∈ nodes} fun a b =>
        Relation.TransGen (fun d n => d ∈ deps n) a.1 b.1 := ⟨fun _ _ _ => Relation.TransGen.trans⟩
    have hirrefl : Std.Irrefl fun a b : {n // n ∈ nodes} =>
        Relation.TransGen (fun d n => d ∈ deps n) a.1 b.1 := ⟨fun n => hacyclic n.1⟩
    exact Finite.wellFounded_of_trans_of_irrefl _
  have hall : ∀ n : {n // n ∈ nodes}, n.1 ∈ ordered := by
    intro n
    induction n using hwf.induction with
    | h n ih =>
      -- all that the node waits for is done before, so that it is free
      have hfree := (h.free n.1 n.2).mp <| by
        rw [h.waiting n.1 n.2, List.length_eq_zero_iff, List.filter_eq_nil_iff]
        intro d hd
        simpa using ih ⟨d, hclosed n.1 n.2 hd⟩ (.single hd)
      exact hfree
  refine (List.perm_ext_iff_of_nodup h.nodup hnodup).mpr fun n => ⟨fun hn => h.mem n hn, ?_⟩
  exact fun hn => hall ⟨n, hn⟩

end Toposort
