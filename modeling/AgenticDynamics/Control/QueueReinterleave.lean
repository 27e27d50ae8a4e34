import Mathlib.Data.List.MinMax
import AgenticDynamics.Library.Accumulate
import AgenticDynamics.Library.Runs

/-!
# The rewrite of the story queue

The queue is a list of job texts that producers push at the head and workers pop from the tail.
A rewrite reads it, reorders the jobs round-robin across providers and replaces the list by the
result; between the reading and the replacement the other clients go on.
-/

namespace AgenticDynamics.Control

open Python Runs

/-! ### The order of a rewrite -/

section Reinterleave

variable (rt : Runtime)

/-- `provider_of`; the error is the exception's class and text. -/
def cellProviderOf : Json → Except (String × String) String
  | .obj fields =>
    match Dict.get? "model" fields with
    | some (.str model) => .ok (Python.partition '/' model).1
    | some value        =>
      .error ("AttributeError", s!"'{value.typeName}' object has no attribute 'split'")
    | none              => .error ("KeyError", rt.repr (.str "model"))
  | .arr _      => .error ("TypeError", "list indices must be integers or slices, not str")
  | .str _      => .error ("TypeError", "string indices must be integers, not 'str'")
  | value       => .error ("TypeError", s!"'{value.typeName}' object is not subscriptable")

/-- `remaining[p]`: it is lowered whenever a cell of the provider's group is taken. -/
def remaining (groups : Dict (List Json)) (provider : String) : ℕ :=
  ((groups.get? provider).getD []).length

/-- The provider that comes next: the first of those with most cells left, the one picked before
only when no other has any; none when no cell is left. -/
def nextProvider (groups : Dict (List Json)) (last : Option String) : Option String :=
  let order := groups.map Prod.fst
  let candidates := order.filter fun p => 0 < remaining groups p ∧ some p ≠ last
  if candidates = [] then
    (order.filter fun p => 0 < remaining groups p).argmax (remaining groups)
  else candidates.argmax (remaining groups)

/-- The loop of `reinterleave_cells`; the fuel is the number of cells left. -/
def rotate : ℕ → Dict (List Json) → Option String → List Json
  | 0, _, _              => []
  | fuel+1, groups, last =>
    match nextProvider groups last with
    | none   => []
    | some p =>
      match (groups.get? p).getD [] with
      | []           => []
      | cell :: rest => cell :: rotate fuel (groups.set p rest) (some p)

/-- The cells of each provider, in the order in which the providers appear first. -/
def groupCells (labelled : List (String × Json)) : Dict (List Json) :=
  Dict.accumulate Prod.fst (fun entry c => entry.getD [] ++ [c.2]) labelled

def reinterleaveCells (cells : List Json) : Except (String × String) (List Json) := do
  if cells = [] then return []
  let providers ← cells.mapM (cellProviderOf rt)
  let counts := Dict.accumulate id (fun entry (_ : String) => entry.getD 0 + 1) providers
  let total := cells.length
  match counts.argmax Prod.snd with
  | none                 => return []
  | some (offender, most) =>
    if 2 * most > total + 1 then
      throw ("ValueError", s!"Reinterleave impossible: provider {rt.repr (.str offender)} has " ++
        s!"{most} of {total} cells; need at most {(total + 1) / 2}. " ++
        "Reduce the imbalance before reinterleaving.")
    else return rotate total (groupCells (providers.zip cells)) none

variable {rt}

lemma nextProvider_mem {groups : Dict (List Json)} {last : Option String} {p : String}
    (h : nextProvider groups last = some p) : 0 < remaining groups p := by
  simp only [nextProvider] at h
  split_ifs at h
  · exact of_decide_eq_true (List.mem_filter.mp (List.argmax_mem h)).2
  · exact (of_decide_eq_true (List.mem_filter.mp (List.argmax_mem h)).2).1

lemma nextProvider_eq_none {groups : Dict (List Json)} {last : Option String}
    (hkeys : (groups.map Prod.fst).Nodup) (h : nextProvider groups last = none) :
    groups.flatMap Prod.snd = [] := by
  have hnone : ∀ p ∈ groups.map Prod.fst, ¬ 0 < remaining groups p := by
    simp only [nextProvider] at h
    split_ifs at h with hcandidates
    · simpa [List.filter_eq_nil_iff] using List.argmax_eq_none.mp h
    · exact absurd (List.argmax_eq_none.mp h) hcandidates
  refine List.flatMap_eq_nil_iff.mpr fun kv hkv => ?_
  have hget : groups.get? kv.1 = some kv.2 := by
    refine Dict.get?_of_mem hkv ?_
    rintro ⟨key, group⟩ hgroup rfl
    exact Dict.value_unique hkeys hgroup hkv
  have hzero := hnone kv.1 (List.mem_map_of_mem hkv)
  rw [remaining, hget] at hzero
  exact List.length_eq_zero_iff.mp (Nat.eq_zero_of_not_pos hzero)

lemma rotate_perm {fuel : ℕ} {groups : Dict (List Json)} {last : Option String}
    (hkeys : (groups.map Prod.fst).Nodup) (hfuel : (groups.flatMap Prod.snd).length ≤ fuel) :
    (rotate fuel groups last).Perm (groups.flatMap Prod.snd) := by
  induction fuel generalizing groups last with
  | zero =>
    rw [List.length_eq_zero_iff.mp (Nat.le_zero.mp hfuel)]
    exact .refl _
  | succ fuel ih =>
    cases hnext : nextProvider groups last with
    | none =>
      rw [rotate, hnext, nextProvider_eq_none hkeys hnext]
    | some p =>
      have hleft := nextProvider_mem hnext
      rw [remaining] at hleft
      cases hgroup : groups.get? p with
      | none => simp [hgroup] at hleft
      | some group =>
        cases group with
        | nil => simp [hgroup] at hleft
        | cons cell rest =>
          have htail := Dict.flatMap_set_tail hkeys hgroup
          have hshorter : ((groups.set p rest).flatMap Prod.snd).length ≤ fuel := by
            have hlength := htail.length_eq
            rw [List.length_cons] at hlength
            omega
          simp only [rotate, hnext, hgroup, Option.getD_some]
          exact ((ih (Dict.nodup_set hkeys) hshorter).cons cell).trans htail

/-- Every job of the queue appears in the reordered one as often as in the queue. -/
theorem reinterleaveCells_perm {cells order : List Json}
    (h : reinterleaveCells rt cells = .ok order) : order.Perm cells := by
  rw [reinterleaveCells] at h
  split_ifs at h with hempty
  · cases h
    rw [hempty]
  · simp only [bind_eq_ok] at h
    obtain ⟨providers, hproviders, h⟩ := h
    have hlength : providers.length = cells.length := (forall₂_of_mapM hproviders).length_eq.symm
    split at h
    · -- the counts have an entry, as there is a cell
      rename_i hnone
      have hkeys := Dict.keys_accumulate id (fun entry (_ : String) => entry.getD 0 + 1) providers
      rw [List.argmax_eq_none.mp hnone, List.map_nil, List.map_id] at hkeys
      cases providers with
      | nil => exact absurd (List.length_eq_zero_iff.mp hlength.symm) hempty
      | cons p providers =>
        have hp : p ∈ firsts (p :: providers) := mem_firsts.mpr List.mem_cons_self
        rw [← hkeys] at hp
        cases hp
    · split_ifs at h
      cases h
      have hcells : ((groupCells (providers.zip cells)).flatMap Prod.snd).Perm cells := by
        have hall := Dict.flatMap_collect Prod.fst Prod.snd (providers.zip cells)
        rwa [List.map_snd_zip hlength.ge] at hall
      exact (rotate_perm (Dict.nodup_accumulate _ _ _) hcells.length_eq.le).trans hcells

end Reinterleave

/-! ### The queue and its clients -/

/-- How far the rewrite has come; after the reading it holds the jobs it read, in consumption
order, and their new order. -/
inductive Rewrite
  | waiting
  | holding (cells order : List Json)
  | done

/-- The list, head first, and the rewrite, with all jobs ever pushed and all that workers took. -/
structure StoryQueue where
  jobs : List String := []
  rewrite : Rewrite := .waiting
  pushed : List String := []
  executed : List String := []

/-- A queue with these jobs, of which none was taken yet. -/
def StoryQueue.start (jobs : List String) : StoryQueue := { jobs := jobs, pushed := jobs }

/-- What the clients of the list do: a producer's `LPUSH`, a worker's `BRPOP`, and the rewrite's
`read_queue`, with the reordering that follows it, and its `write_queue`. -/
inductive QueueStep
  | push (job : String)
  | pop
  | readQueue
  | writeQueue

section Clients

variable (rt : Runtime) (dumps : Json → String)

/-- `read_queue`: the jobs in consumption order. -/
def readQueue (jobs : List String) : Except (String × String) (List Json) :=
  (jobs.mapM rt.loads).map List.reverse

/-- `write_queue`: the list whose consumption order is `order`. -/
def writeQueue (order : List Json) : List String := order.reverse.map dumps

/-- The reading and the reordering; a rewrite that raises ends there. -/
def beginRewrite (jobs : List String) : Rewrite :=
  match readQueue rt jobs with
  | .error _  => .done
  | .ok cells =>
    match reinterleaveCells rt cells with
    | .error _  => .done
    | .ok order => .holding cells order

def StoryQueue.step (q : StoryQueue) : QueueStep → StoryQueue
  | .push job   => { q with jobs := job :: q.jobs, pushed := job :: q.pushed }
  | .pop        =>
    match q.jobs.getLast? with
    | none     => q
    | some job => { q with jobs := q.jobs.dropLast, executed := q.executed ++ [job] }
  | .readQueue  =>
    match q.rewrite with
    | .waiting => { q with rewrite := beginRewrite rt q.jobs }
    | _        => q
  | .writeQueue =>
    match q.rewrite with
    | .holding _ order => { q with jobs := writeQueue dumps order, rewrite := .done }
    | _                => q

/-- The jobs taken and the jobs in the list are the jobs pushed: none is dropped and none that
was taken is put back. A job is what its text parses to. -/
def StoryQueue.Conserved (q : StoryQueue) : Prop :=
  ((q.executed ++ q.jobs).map rt.loads).Perm (q.pushed.map rt.loads)

/-- At the write the list holds the jobs that were read. -/
def StoryQueue.Undisturbed (q : StoryQueue) (i : QueueStep) : Prop :=
  ∀ cells order, i = .writeQueue → q.rewrite = .holding cells order →
    (q.jobs.map rt.loads).Perm (cells.map .ok)

variable {rt dumps}

lemma beginRewrite_holding {jobs : List String} {cells order : List Json}
    (h : beginRewrite rt jobs = .holding cells order) :
    order.Perm cells ∧ ∀ cell ∈ cells, ∃ job, rt.loads job = .ok cell := by
  rw [beginRewrite] at h
  split at h
  · cases h
  · rename_i read hread
    split at h
    · cases h
    · rename_i reordered hreordered
      cases h
      refine ⟨reinterleaveCells_perm hreordered, fun cell hcell => ?_⟩
      rw [readQueue] at hread
      cases hparsed : jobs.mapM rt.loads with
      | error e => rw [hparsed] at hread; cases hread
      | ok parsed =>
        rw [hparsed] at hread
        cases hread
        obtain ⟨job, -, hjob⟩ := (mem_of_mapM_ok hparsed).mp (List.mem_reverse.mp hcell)
        exact ⟨job, hjob⟩

/-- A rewrite under way holds jobs that parsed, and the same jobs in a new order. -/
def StoryQueue.Faithful (rt : Runtime) (q : StoryQueue) : Prop :=
  ∀ cells order, q.rewrite = .holding cells order →
    order.Perm cells ∧ ∀ cell ∈ cells, ∃ job, rt.loads job = .ok cell

lemma StoryQueue.Faithful.step {q : StoryQueue} (h : q.Faithful rt) (i : QueueStep) :
    (q.step rt dumps i).Faithful rt := by
  cases i with
  | push job => exact h
  | pop =>
    rw [StoryQueue.step]
    split
    · exact h
    · exact h
  | readQueue =>
    rw [StoryQueue.step]
    split
    · intro cells order hholding
      exact beginRewrite_holding hholding
    · exact h
  | writeQueue =>
    rw [StoryQueue.step]
    split
    · intro cells order hholding
      cases hholding
    · exact h

lemma StoryQueue.Conserved.step {q : StoryQueue} (h : q.Conserved rt) {i : QueueStep}
    (hi : i ≠ .writeQueue) : (q.step rt dumps i).Conserved rt := by
  cases i with
  | push job =>
    have hmoved : (q.executed ++ job :: q.jobs).Perm (job :: (q.executed ++ q.jobs)) :=
      List.perm_middle
    exact (hmoved.map rt.loads).trans (h.cons (rt.loads job))
  | pop =>
    rw [StoryQueue.step]
    split
    · exact h
    · rename_i job hjob
      have hsplit : q.jobs.dropLast ++ [job] = q.jobs := List.dropLast_append_getLast? job hjob
      have htaken : (q.executed ++ [job] ++ q.jobs.dropLast).Perm (q.executed ++ q.jobs) := by
        conv_rhs => rw [← hsplit]
        rw [List.append_assoc]
        exact List.perm_append_comm.append_left _
      exact (htaken.map rt.loads).trans h
  | readQueue =>
    rw [StoryQueue.step]
    split
    · exact h
    · exact h
  | writeQueue => exact absurd rfl hi

lemma StoryQueue.write_conserved_iff
    (hround : ∀ job cell, rt.loads job = .ok cell → rt.loads (dumps cell) = .ok cell)
    {q : StoryQueue} (hfaithful : q.Faithful rt) (h : q.Conserved rt) :
    (q.step rt dumps .writeQueue).Conserved rt ↔ q.Undisturbed rt .writeQueue := by
  cases hrewrite : q.rewrite with
  | waiting =>
    have hstep : q.step rt dumps .writeQueue = q := by rw [StoryQueue.step, hrewrite]
    rw [hstep]
    exact iff_of_true h fun cells order _ hholding => by rw [hrewrite] at hholding; cases hholding
  | done =>
    have hstep : q.step rt dumps .writeQueue = q := by rw [StoryQueue.step, hrewrite]
    rw [hstep]
    exact iff_of_true h fun cells order _ hholding => by rw [hrewrite] at hholding; cases hholding
  | holding cells order =>
    obtain ⟨hperm, hparsed⟩ := hfaithful cells order hrewrite
    have hwritten : ((writeQueue dumps order).map rt.loads).Perm (cells.map .ok) := by
      have hloads : (writeQueue dumps order).map rt.loads = order.reverse.map .ok := by
        rw [writeQueue, List.map_map]
        refine List.map_congr_left fun cell hcell => ?_
        obtain ⟨job, hjob⟩ := hparsed cell (hperm.mem_iff.mp (List.mem_reverse.mp hcell))
        exact hround job cell hjob
      rw [hloads]
      exact ((List.reverse_perm order).trans hperm).map _
    have hconserved : (q.step rt dumps .writeQueue).Conserved rt ↔
        (q.executed.map rt.loads ++ (writeQueue dumps order).map rt.loads).Perm
          (q.executed.map rt.loads ++ q.jobs.map rt.loads) := by
      rw [StoryQueue.step, hrewrite, Conserved, List.map_append]
      rw [Conserved, List.map_append] at h
      exact ⟨fun hw => hw.trans h.symm, fun hw => hw.trans h⟩
    rw [hconserved, List.perm_append_left_iff]
    constructor
    · rintro hw cells' order' - hholding
      rw [hrewrite] at hholding
      cases hholding
      exact hw.symm.trans hwritten
    · intro hundisturbed
      exact hwritten.trans (hundisturbed cells order rfl hrewrite).symm

/-- However the rewrite interleaves with producers and workers, every job pushed is taken once or
still in the list at every moment if and only if the write finds the jobs that were read. -/
theorem rewrite_conserves_iff
    (hround : ∀ job cell, rt.loads job = .ok cell → rt.loads (dumps cell) = .ok cell)
    (jobs : List String) (steps : List QueueStep) :
    Throughout (StoryQueue.step rt dumps) (StoryQueue.Conserved rt) (.start jobs) steps ↔
      Along (StoryQueue.step rt dumps) (StoryQueue.Undisturbed rt) (.start jobs) steps := by
  have hstart : (StoryQueue.start jobs).Faithful rt := by
    intro cells order h
    cases h
  refine throughout_iff_along (fun q i hq => hq.step i) (fun q i hq h => ?_) hstart (.refl _)
  by_cases hi : i = .writeQueue
  · rw [hi]
    exact StoryQueue.write_conserved_iff hround hq h
  · exact iff_of_true (h.step hi) fun cells order hwrite => absurd hwrite hi

end Clients

/-! ### A story queue with two jobs -/

def modelCell (model : String) : Json := .obj [("model", .str model)]

def modelText (model : String) : String := "\x7b\"model\": \"" ++ model ++ "\"\x7d"

/-- `json.loads` and `json.dumps` on the cells of two models. -/
def storyRuntime : Runtime where
  loads text :=
    if text = modelText "openai/luna" then .ok (modelCell "openai/luna")
    else if text = modelText "google/flash" then .ok (modelCell "google/flash")
    else .error ("JSONDecodeError", "Expecting value")
  repr _ := ""
  upper := id
  lower := id

def storyDumps : Json → String
  | .obj [(_, .str model)] => modelText model
  | _                      => "null"

lemma storyDumps_modelCell (model : String) : storyDumps (modelCell model) = modelText model := rfl

lemma storyRuntime_round (job : String) (cell : Json) (h : storyRuntime.loads job = .ok cell) :
    storyRuntime.loads (storyDumps cell) = .ok cell := by
  simp only [storyRuntime] at h ⊢
  split_ifs at h with hluna hflash
  · cases h
    rw [storyDumps_modelCell, if_pos rfl]
  · cases h
    rw [storyDumps_modelCell, ← hflash, if_neg hluna, if_pos rfl]

/-- A rewrite that nothing disturbs, and the workers after it. -/
theorem rewrite_conserves_quiet :
    Throughout (StoryQueue.step storyRuntime storyDumps) (StoryQueue.Conserved storyRuntime)
      (.start [modelText "openai/luna", modelText "google/flash"])
      [.readQueue, .writeQueue, .pop, .pop] := by
  refine (rewrite_conserves_iff storyRuntime_round _ _).mpr ⟨?_, ?_, ?_, ?_, trivial⟩
  · rintro cells order ⟨⟩
  · rintro cells order - hholding
    cases hholding
    exact List.Perm.swap _ _ _
  · rintro cells order ⟨⟩
  · rintro cells order ⟨⟩

/-- A job that a worker takes between the reading and the write is put back, and one that a
producer pushes there is dropped. -/
theorem disturbed_rewrite_loses :
    (¬ Throughout (StoryQueue.step storyRuntime storyDumps) (StoryQueue.Conserved storyRuntime)
      (.start [modelText "openai/luna"]) [.readQueue, .pop, .writeQueue]) ∧
    ¬ Throughout (StoryQueue.step storyRuntime storyDumps) (StoryQueue.Conserved storyRuntime)
      (.start [modelText "openai/luna"])
      [.readQueue, .push (modelText "google/flash"), .writeQueue] := by
  constructor
  · intro h
    have hlength := (h _ (List.prefix_refl _)).length_eq
    rw [List.length_map, List.length_map] at hlength
    exact absurd hlength (by decide +kernel)
  · intro h
    have hlength := (h _ (List.prefix_refl _)).length_eq
    rw [List.length_map, List.length_map] at hlength
    exact absurd hlength (by decide +kernel)

end AgenticDynamics.Control
