import AgenticDynamics.Control.StepRouting

/-!
# The choice of a router

The choice depends only on the set of the measured candidates, and a candidate that another one
dominates is chosen only where their scores are the same.
-/

namespace AgenticDynamics.Control.Routing

open Python

/-! ### The best of the scored -/

section Select

variable {q : RouteCall} {scored scored' : List Scored} {m : String}

/-- The choice has the greatest key, and the least id of those that have it. -/
def RouteCall.Best (q : RouteCall) (scored : List Scored) (t : Scored) : Prop :=
  t ∈ scored ∧ ∀ u ∈ scored, q.selectKey u < q.selectKey t ∨
    q.selectKey u = q.selectKey t ∧ t.model ≤ u.model

lemma select_spec (h : q.select scored = some m) : ∃ t, q.Best scored t ∧ t.model = m := by
  obtain ⟨t, ht, rfl⟩ := Option.map_eq_some_iff.mp h
  obtain ⟨hmem, hmax, hfirst⟩ := List.mem_argmax_iff.mp ht
  have hsorted := @List.pairwise_mergeSort Scored (fun s t => decide (s.model ≤ t.model))
    (fun a b c hab hbc => by
      simpa using String.le_trans (of_decide_eq_true hab) (of_decide_eq_true hbc))
    (fun a b => by simpa using String.le_total a.model b.model) scored
  refine ⟨t, ⟨List.mem_mergeSort.mp hmem, fun u hu => ?_⟩, rfl⟩
  have husorted : u ∈ scored.mergeSort fun s t => decide (s.model ≤ t.model) :=
    List.mem_mergeSort.mpr hu
  rcases lt_or_eq_of_le (hmax u husorted) with hlt | heq
  · exact .inl hlt
  · refine .inr ⟨heq, ?_⟩
    rcases lt_or_eq_of_le (hfirst u husorted heq.ge) with hindex | hindex
    · have hle := List.pairwise_iff_getElem.mp hsorted _ _ (List.idxOf_lt_length_of_mem hmem)
        (List.idxOf_lt_length_of_mem husorted) hindex
      simpa using hle
    · have hsame : t = u := (List.idxOf_inj hmem).mp hindex
      exact hsame ▸ String.le_refl _

lemma select_isSome (h : scored ≠ []) : (q.select scored).isSome = true := by
  rw [RouteCall.select, Option.isSome_map]
  by_contra hnone
  have hsorted : scored.mergeSort (fun s t => s.model ≤ t.model) = [] :=
    List.argmax_eq_none.mp (Option.not_isSome_iff_eq_none.mp hnone)
  exact h (List.length_eq_zero_iff.mp (by simpa using congrArg List.length hsorted))

lemma select_congr (hne : scored ≠ []) (h : ∀ t, t ∈ scored ↔ t ∈ scored') :
    q.select scored = q.select scored' := by
  have hne' : scored' ≠ [] := by
    obtain ⟨t, ht⟩ := List.exists_mem_of_ne_nil scored hne
    exact List.ne_nil_of_mem ((h t).mp ht)
  obtain ⟨m, hm⟩ := Option.isSome_iff_exists.mp (@select_isSome q _ hne)
  obtain ⟨m', hm'⟩ := Option.isSome_iff_exists.mp (@select_isSome q _ hne')
  obtain ⟨t, ⟨ht, hbest⟩, rfl⟩ := select_spec hm
  obtain ⟨t', ⟨ht', hbest'⟩, rfl⟩ := select_spec hm'
  rw [hm, hm']
  have hmodel : t.model = t'.model := by
    rcases hbest t' ((h t').mpr ht') with hlt | ⟨heq, hle⟩
    · rcases hbest' t ((h t).mp ht) with hlt' | ⟨heq', -⟩
      · exact absurd hlt' (lt_asymm hlt)
      · exact absurd heq'.symm hlt.ne
    · rcases hbest' t ((h t).mp ht) with hlt' | ⟨-, hle'⟩
      · exact absurd heq.symm hlt'.ne
      · exact String.le_antisymm hle hle'
  rw [hmodel]

end Select

/-! ### The scores -/

section Scores

variable {q : RouteCall} {el el' : List String} {a b m : String}

variable (q) in
/-- The candidate carries a value of some objective. -/
def RouteCall.Measured (m : String) : Prop :=
  ∃ o ∈ q.valid, (q.measured m o.signal).isSome = true

lemma min?_congr {l l' : List ℚ} (h : ∀ v, v ∈ l ↔ v ∈ l') : l.min? = l'.min? := by
  refine Option.ext fun v => ?_
  rw [List.min?_eq_some_iff, List.min?_eq_some_iff]
  simp only [h]

lemma max?_congr {l l' : List ℚ} (h : ∀ v, v ∈ l ↔ v ∈ l') : l.max? = l'.max? := by
  refine Option.ext fun v => ?_
  rw [List.max?_eq_some_iff, List.max?_eq_some_iff]
  simp only [h]

lemma range_congr {signal : String}
    (h : ∀ m, (q.measured m signal).isSome → (m ∈ el ↔ m ∈ el')) :
    q.range el signal = q.range el' signal := by
  have hvals (v : ℚ) : v ∈ el.filterMap (q.measured · signal) ↔
      v ∈ el'.filterMap (q.measured · signal) := by
    simp only [List.mem_filterMap]
    constructor
    · rintro ⟨m, hm, hv⟩
      exact ⟨m, (h m (by simp [hv])).mp hm, hv⟩
    · rintro ⟨m, hm, hv⟩
      exact ⟨m, (h m (by simp [hv])).mpr hm, hv⟩
  simp only [RouteCall.range, min?_congr hvals, max?_congr hvals]

lemma scoreOf_congr (h : ∀ m, q.Measured m → (m ∈ el ↔ m ∈ el')) (m : String) :
    q.scoreOf el m = q.scoreOf el' m := by
  have hfold : q.valid.foldl (q.addObjective el m) (0, 0) =
      q.valid.foldl (q.addObjective el' m) (0, 0) := by
    refine List.foldl_ext _ _ _ fun sums o ho => ?_
    have hrange := range_congr fun m' hm' => h m' ⟨o, ho, hm'⟩
    rw [RouteCall.addObjective, RouteCall.addObjective, hrange]
  simp only [RouteCall.scoreOf, hfold]

lemma scoreOf_unmeasured (h : ¬ q.Measured m) : q.scoreOf el m = none := by
  have hfold : q.valid.foldl (q.addObjective el m) (0, 0) = (0, 0) := by
    refine List.foldlRecOn (motive := fun sums => sums = (0, 0)) _ _ rfl fun sums hsums o ho => ?_
    have hnone : q.measured m o.signal = none :=
      Option.not_isSome_iff_eq_none.mp fun hsome => h ⟨o, ho, hsome⟩
    rw [RouteCall.addObjective, hnone]
    split
    · rename_i hv
      cases hv
    · exact hsums
  simp [RouteCall.scoreOf, hfold]

/-- The scored candidates depend only on which of the measured ones are eligible. -/
lemma mem_scoreEligible_congr (h : ∀ m, q.Measured m → (m ∈ el ↔ m ∈ el')) (t : Scored) :
    t ∈ q.scoreEligible el ↔ t ∈ q.scoreEligible el' := by
  have hmeasured {el : List String} {m : String} (ht : q.scoreOf el m = some t) :
      q.Measured m := by
    by_contra hun
    cases (scoreOf_unmeasured hun).symm.trans ht
  simp only [RouteCall.scoreEligible, List.mem_filterMap]
  constructor
  · rintro ⟨m, hm, ht⟩
    exact ⟨m, (h m (hmeasured ht)).mp hm, scoreOf_congr h m ▸ ht⟩
  · rintro ⟨m, hm, ht⟩
    exact ⟨m, (h m (hmeasured ht)).mpr hm, (scoreOf_congr h m).symm ▸ ht⟩

/-! ### Dominance -/

/-- A value is at least as good as another. -/
def AtLeast (direction : String) (x y : ℚ) : Prop :=
  if direction = "maximize" then y ≤ x else x ≤ y

def Better (direction : String) (x y : ℚ) : Prop :=
  if direction = "maximize" then y < x else x < y

variable (q) in
/-- Both candidates carry the objective, with values in a relation. -/
def RouteCall.Compares (good : String → ℚ → ℚ → Prop) (b a : String) (o : Objective) : Prop :=
  ∃ x y, q.measured b o.signal = some x ∧ q.measured a o.signal = some y ∧ good o.direction x y

variable (q) in
/-- Both candidates carry every objective, and the first is at least as good on each. -/
def RouteCall.Dominates (b a : String) : Prop := ∀ o ∈ q.valid, q.Compares AtLeast b a o

variable (q el) in
/-- The first candidate is better on the objective, which has a weight and whose values over the
eligible candidates do not count as equal. -/
def RouteCall.Surpasses (b a : String) (o : Objective) : Prop :=
  0 < o.weight ∧ q.Compares Better b a o ∧
    ∃ lo hi, q.range el o.signal = some (lo, hi) ∧ 1 / 10 ^ 12 ≤ q.r.round (hi - lo)

lemma spread_pos {v : ℚ} (h : 1 / 10 ^ 12 ≤ v) : 0 < v := lt_of_lt_of_le (by norm_num) h

lemma normalize_mono {direction : String} {x y lo hi : ℚ} (h : AtLeast direction x y) :
    q.normalize y lo hi direction ≤ q.normalize x lo hi direction := by
  unfold RouteCall.normalize
  by_cases hspread : q.r.round (hi - lo) < 1 / 10 ^ 12
  · rw [if_pos hspread, if_pos hspread]
  · have hpos := spread_pos (not_lt.mp hspread)
    have hscaled {v w : ℚ} (hvw : v ≤ w) : q.r.round (q.r.round (v - lo) / q.r.round (hi - lo)) ≤
        q.r.round (q.r.round (w - lo) / q.r.round (hi - lo)) :=
      q.r.mono (div_le_div_of_nonneg_right (q.r.mono (sub_le_sub_right hvw lo)) hpos.le)
    rw [if_neg hspread, if_neg hspread]
    unfold AtLeast at h
    by_cases hmax : direction = "maximize"
    · rw [if_pos hmax] at h
      simpa only [if_pos hmax] using hscaled h
    · rw [if_neg hmax] at h
      simpa only [if_neg hmax] using q.r.mono (sub_le_sub_left (hscaled h) 1)

lemma normalize_strict (hstrict : StrictMono q.r.round) {direction : String} {x y lo hi : ℚ}
    (hspread : 1 / 10 ^ 12 ≤ q.r.round (hi - lo)) (h : Better direction x y) :
    q.normalize y lo hi direction < q.normalize x lo hi direction := by
  have hpos := spread_pos hspread
  have hscaled {v w : ℚ} (hvw : v < w) : q.r.round (q.r.round (v - lo) / q.r.round (hi - lo)) <
      q.r.round (q.r.round (w - lo) / q.r.round (hi - lo)) :=
    hstrict (div_lt_div_of_pos_right (hstrict (sub_lt_sub_right hvw lo)) hpos)
  unfold RouteCall.normalize
  rw [if_neg (not_lt.mpr hspread), if_neg (not_lt.mpr hspread)]
  unfold Better at h
  by_cases hmax : direction = "maximize"
  · rw [if_pos hmax] at h
    simpa only [if_pos hmax] using hscaled h
  · rw [if_neg hmax] at h
    simpa only [if_neg hmax] using hstrict (sub_lt_sub_left (hscaled h) 1)

/-- The sums of a candidate and of one that dominates it. -/
structure Trails (s t : ℚ × ℚ) : Prop where
  total : s.1 = t.1
  weighted : s.2 ≤ t.2

lemma range_isSome {signal : String} {y : ℚ} (ha : a ∈ el) (hy : q.measured a signal = some y) :
    ∃ lo hi, q.range el signal = some (lo, hi) := by
  have hmem : y ∈ el.filterMap (q.measured · signal) :=
    List.mem_filterMap.mpr ⟨a, ha, hy⟩
  obtain ⟨lo, hlo⟩ := Option.isSome_iff_exists.mp (List.isSome_min?_of_mem hmem)
  obtain ⟨hi, hhi⟩ := Option.isSome_iff_exists.mp (List.isSome_max?_of_mem hmem)
  exact ⟨lo, hi, by simp [RouteCall.range, hlo, hhi]⟩

section Step

variable {s t : ℚ × ℚ} {o : Objective} {x y : ℚ}

lemma addObjective_eq {lo hi : ℚ} (hrange : q.range el o.signal = some (lo, hi))
    (hx : q.measured m o.signal = some x) :
    q.addObjective el m s o = (q.r.round (s.1 + o.weight),
      q.r.round (s.2 + q.r.round (o.weight * q.normalize x lo hi o.direction))) := by
  rw [RouteCall.addObjective, hrange, hx]

lemma Trails.step (h : Trails s t) (ha : a ∈ el) (hw : 0 ≤ o.weight)
    (hx : q.measured b o.signal = some x) (hy : q.measured a o.signal = some y)
    (hle : AtLeast o.direction x y) :
    Trails (q.addObjective el a s o) (q.addObjective el b t o) := by
  obtain ⟨lo, hi, hrange⟩ := range_isSome ha hy
  rw [addObjective_eq hrange hx, addObjective_eq hrange hy]
  exact ⟨by rw [h.total], q.r.mono (add_le_add h.weighted
    (q.r.mono (mul_le_mul_of_nonneg_left (normalize_mono hle) hw)))⟩

end Step

lemma Trails.fold {l : List Objective} {s t : ℚ × ℚ} (h : Trails s t) (ha : a ∈ el)
    (hl : ∀ o ∈ l, 0 ≤ o.weight ∧ q.Compares AtLeast b a o) :
    Trails (l.foldl (q.addObjective el a) s) (l.foldl (q.addObjective el b) t) := by
  induction l generalizing s t with
  | nil => exact h
  | cons o l ih =>
    obtain ⟨hw, x, y, hx, hy, hle⟩ := hl o (by simp)
    exact ih (h.step ha hw hx hy hle) fun o' ho' => hl o' (by simp [ho'])

/-- With a strict arithmetic, one objective on which the other is better is enough. -/
lemma Trails.fold_strict (hstrict : StrictMono q.r.round) {l : List Objective} {s t : ℚ × ℚ}
    (h : Trails s t) (ha : a ∈ el) (hl : ∀ o ∈ l, 0 ≤ o.weight ∧ q.Compares AtLeast b a o)
    (hbetter : s.2 < t.2 ∨ ∃ o ∈ l, q.Surpasses el b a o) :
    (l.foldl (q.addObjective el a) s).2 < (l.foldl (q.addObjective el b) t).2 := by
  induction l generalizing s t with
  | nil => simpa using hbetter
  | cons o l ih =>
    obtain ⟨hw, x, y, hx, hy, hle⟩ := hl o (by simp)
    refine ih (h.step ha hw hx hy hle) (fun o' ho' => hl o' (by simp [ho'])) ?_
    obtain ⟨lo, hi, hrange⟩ := range_isSome ha hy
    rw [addObjective_eq hrange hx, addObjective_eq hrange hy]
    rcases hbetter with hlt | ⟨o', ho', hsurpasses⟩
    · exact .inl (hstrict (add_lt_add_of_lt_of_le hlt
        (q.r.mono (mul_le_mul_of_nonneg_left (normalize_mono hle) hw))))
    · rcases List.mem_cons.mp ho' with rfl | hrest
      · obtain ⟨hpos, ⟨x', y', hx', hy', hbetter⟩, lo', hi', hrange', hspread⟩ := hsurpasses
        cases hx.symm.trans hx'
        cases hy.symm.trans hy'
        cases hrange.symm.trans hrange'
        exact .inl (hstrict (add_lt_add_of_le_of_lt h.weighted
          (hstrict (mul_lt_mul_of_pos_left (normalize_strict hstrict hspread hbetter) hpos))))
      · exact .inr ⟨o', hrest, hsurpasses⟩

lemma Trails.total_pos (hstrict : StrictMono q.r.round) {l : List Objective} {s : ℚ × ℚ}
    (hs : 0 ≤ s.1) (ha : a ∈ el) (hl : ∀ o ∈ l, 0 ≤ o.weight ∧ q.Compares AtLeast b a o)
    (hpos : 0 < s.1 ∨ ∃ o ∈ l, 0 < o.weight) :
    0 < (l.foldl (q.addObjective el a) s).1 := by
  induction l generalizing s with
  | nil => simpa using hpos
  | cons o l ih =>
    obtain ⟨hw, x, y, hx, hy, hle⟩ := hl o (by simp)
    obtain ⟨lo, hi, hrange⟩ := range_isSome ha hy
    rw [List.foldl_cons, addObjective_eq hrange hy]
    have hround {v : ℚ} (hv : 0 < v) : 0 < q.r.round v := by
      simpa only [q.r.zero] using hstrict hv
    have hnonneg : 0 ≤ q.r.round (s.1 + o.weight) := by
      simpa only [q.r.zero] using q.r.mono (add_nonneg hs hw)
    refine ih hnonneg (fun o' ho' => hl o' (by simp [ho'])) ?_
    rcases hpos with hlt | ⟨o', ho', hpos⟩
    · exact .inl (hround (add_pos_of_pos_of_nonneg hlt hw))
    · rcases List.mem_cons.mp ho' with rfl | hrest
      · exact .inl (hround (add_pos_of_nonneg_of_pos hs hpos))
      · exact .inr ⟨o', hrest, hpos⟩

lemma scoreOf_total {sums : ℚ × ℚ} {sig : ModelSignals} (hsig : Dict.get? m q.signals = some sig)
    (hsums : q.valid.foldl (q.addObjective el m) (0, 0) = sums) :
    q.scoreOf el m = if sums.1 ≤ 0 then none
      else some ⟨m, q.r.round (sums.2 / sums.1), q.effectiveCost m sig⟩ := by
  simp [RouteCall.scoreOf, hsig, hsums]

lemma measured_sig {signal : String} {x : ℚ} (h : q.measured m signal = some x) :
    ∃ sig, Dict.get? m q.signals = some sig := by
  obtain ⟨sig, hsig, -⟩ := Option.bind_eq_some_iff.mp h
  exact ⟨sig, hsig⟩

lemma dominated_score (hweight : ∀ o ∈ q.objectives, 0 ≤ o.weight) (ha : a ∈ el)
    (hdom : q.Dominates b a) :
    (q.scoreOf el a = none ∧ q.scoreOf el b = none ∧
      (StrictMono q.r.round → ∀ o ∈ q.valid, ¬ q.Surpasses el b a o)) ∨
    ∃ t u, q.scoreOf el a = some t ∧ q.scoreOf el b = some u ∧ t.score ≤ u.score ∧
      (StrictMono q.r.round → ∀ o ∈ q.valid, q.Surpasses el b a o → t.score < u.score) := by
  have hl : ∀ o ∈ q.valid, 0 ≤ o.weight ∧ q.Compares AtLeast b a o :=
    fun o ho => ⟨hweight o (List.mem_of_mem_filter ho), hdom o ho⟩
  cases hvalid : q.valid with
  | nil =>
    have hnone (m : String) : q.scoreOf el m = none := by simp [RouteCall.scoreOf, hvalid]
    exact .inl ⟨hnone a, hnone b, by simp⟩
  | cons o l =>
    obtain ⟨x, y, hx, hy, -⟩ := hdom o (by simp [hvalid])
    obtain ⟨sigA, hsigA⟩ := measured_sig hy
    obtain ⟨sigB, hsigB⟩ := measured_sig hx
    have htrails := Trails.fold (s := (0, 0)) (t := (0, 0)) ⟨rfl, le_refl _⟩ ha hl
    rw [scoreOf_total hsigA rfl, scoreOf_total hsigB rfl, ← htrails.total, ← hvalid]
    split_ifs with htotal
    · refine .inl ⟨rfl, rfl, fun hstrict o ho hsurpasses => ?_⟩
      exact absurd (Trails.total_pos hstrict le_rfl ha hl (.inr ⟨o, ho, hsurpasses.1⟩))
        (not_lt.mpr htotal)
    · have hpos := not_le.mp htotal
      refine .inr ⟨_, _, rfl, rfl, ?_, fun hstrict o ho hsurpasses => ?_⟩
      · exact q.r.mono (div_le_div_of_nonneg_right htrails.weighted hpos.le)
      · exact hstrict (div_lt_div_of_pos_right
          (Trails.fold_strict hstrict ⟨rfl, le_refl _⟩ ha hl (.inr ⟨o, ho, hsurpasses⟩)) hpos)

end Scores

/-! ### The choice -/

section Choice

variable {q : RouteCall} {repr : String → String} {phase : Phase}

def StepSelector.Allows (s : StepSelector) (m : String) : Prop :=
  match s.pinned with
  | some mid => m = mid
  | none     => s.allowed = [] ∨ m ∈ s.allowed

lemma mem_eligible {m : String} : m ∈ q.eligible phase ↔ m ∈ q.pool ∧
    ((parseStepSelector phase).allowed = [] ∨ m ∈ (parseStepSelector phase).allowed) := by
  rw [RouteCall.eligible]
  split_ifs with h <;> simp [h]

lemma mem_of_select {el : List String} {m : String} (h : q.select (q.scoreEligible el) = some m) :
    ∃ t, q.Best (q.scoreEligible el) t ∧ m ∈ el ∧ q.scoreOf el m = some t := by
  obtain ⟨t, hbest, rfl⟩ := select_spec h
  have hmem := hbest.1
  rw [RouteCall.scoreEligible, List.mem_filterMap] at hmem
  obtain ⟨m, hm, ht⟩ := hmem
  have hmodel : t.model = m := by
    obtain ⟨sig, -, h⟩ := Option.bind_eq_some_iff.mp ht
    dsimp only at h
    split_ifs at h
    cases h
    rfl
  exact ⟨t, hbest, hmodel ▸ hm, hmodel ▸ ht⟩

lemma routeStep_eligible (hpin : (parseStepSelector phase).pinned = none) {m : String}
    (h : q.routeStep phase = .ok m) : m ∈ q.eligible phase := by
  simp only [RouteCall.routeStep, hpin] at h
  split at h
  · cases h
  · rename_i first rest heq
    split at h
    · rename_i model hselect
      cases h
      obtain ⟨t, -, hmem, -⟩ := mem_of_select hselect
      exact hmem
    · have hfirst : first ∈ q.eligible phase := by simp [heq]
      split at h
      · cases h
        split_ifs with hprev
        · exact hprev
        · exact hfirst
      · cases h
        exact hfirst

lemma pinned_mem {mid : String} (hpin : (parseStepSelector phase).pinned = some mid)
    (hvalid : validateStepSelector repr phase q.pool = []) : mid ∈ q.pool := by
  have hmodel : phase.model = some mid := (Option.filter_eq_some_iff.mp hpin).1
  by_contra hmem
  simp [validateStepSelector, hmodel, hmem] at hvalid

lemma routeStep_scored (hpin : (parseStepSelector phase).pinned = none)
    (hne : q.scoreEligible (q.eligible phase) ≠ []) :
    ∃ m, q.select (q.scoreEligible (q.eligible phase)) = some m ∧ q.routeStep phase = .ok m := by
  obtain ⟨m, hm⟩ := Option.isSome_iff_exists.mp (@select_isSome q _ hne)
  refine ⟨m, hm, ?_⟩
  simp only [RouteCall.routeStep, hpin]
  cases heq : q.eligible phase with
  | nil => rw [heq] at hne; exact absurd rfl hne
  | cons first rest => rw [heq] at hm; simp [hm]

/-- The choice is a model of the pool that the step allows; with a scored candidate it depends only
on which of the measured models are in the pool; and a candidate that another one dominates is
chosen only with the same score, which under a strict arithmetic leaves no objective with a weight
and a spread on which the other is better. -/
theorem routeStep_spec (hweight : ∀ o ∈ q.objectives, 0 ≤ o.weight)
    (hvalid : (parseStepSelector phase).pinned ≠ none →
      validateStepSelector repr phase q.pool = []) :
    (∀ m, q.routeStep phase = .ok m → m ∈ q.pool ∧ (parseStepSelector phase).Allows m) ∧
    (∀ pool', q.scoreEligible (q.eligible phase) ≠ [] →
      (∀ m, q.Measured m → (m ∈ q.pool ↔ m ∈ pool')) →
      RouteCall.routeStep { q with pool := pool' } phase = q.routeStep phase) ∧
    ∀ a b, (parseStepSelector phase).pinned = none → a ∈ q.eligible phase →
      b ∈ q.eligible phase → q.Dominates b a → q.routeStep phase = .ok a →
      (q.scoreOf (q.eligible phase) a).map Scored.score =
        (q.scoreOf (q.eligible phase) b).map Scored.score ∧
      (StrictMono q.r.round → ∀ o ∈ q.valid, ¬ q.Surpasses (q.eligible phase) b a o) := by
  refine ⟨fun m h => ?_, fun pool' hne hpool => ?_, fun a b hpin ha hb hdom h => ?_⟩
  · cases hpin : (parseStepSelector phase).pinned with
    | some mid =>
      simp only [RouteCall.routeStep, hpin] at h
      cases h
      exact ⟨pinned_mem hpin (hvalid (by simp [hpin])), by simp [StepSelector.Allows, hpin]⟩
    | none =>
      have hmem := mem_eligible.mp (routeStep_eligible hpin h)
      exact ⟨hmem.1, by simpa [StepSelector.Allows, hpin] using hmem.2⟩
  · cases hpin : (parseStepSelector phase).pinned with
    | some mid => simp only [RouteCall.routeStep, hpin]
    | none =>
      have hsame (m : String) (hm : q.Measured m) :
          m ∈ q.eligible phase ↔ m ∈ RouteCall.eligible { q with pool := pool' } phase := by
        rw [mem_eligible, mem_eligible, hpool m hm]
      have hscored := mem_scoreEligible_congr hsame
      obtain ⟨t, ht⟩ := List.exists_mem_of_ne_nil _ hne
      have hne' := List.ne_nil_of_mem ((hscored t).mp ht)
      obtain ⟨m, hm, hroute⟩ := routeStep_scored hpin hne
      obtain ⟨m', hm', hroute'⟩ := @routeStep_scored { q with pool := pool' } _ hpin hne'
      have hselect := hm.symm.trans ((select_congr hne hscored).trans hm')
      rw [hroute, hroute', Option.some.inj hselect]
  · rcases dominated_score hweight ha hdom with ⟨hnoneA, hnoneB, hstrict⟩ |
      ⟨t, u, ht, hu, hle, hstrict⟩
    · exact ⟨by rw [hnoneA, hnoneB], hstrict⟩
    · have hmemB := List.mem_filterMap.mpr ⟨b, hb, hu⟩
      obtain ⟨m, hm, hroute⟩ := routeStep_scored hpin (List.ne_nil_of_mem hmemB)
      cases hroute.symm.trans h
      obtain ⟨t', hbest, -, ht'⟩ := mem_of_select hm
      cases ht.symm.trans ht'
      have hkey : q.selectKey u ≤ q.selectKey t :=
        (hbest.2 u hmemB).elim le_of_lt fun heq => heq.1.le
      have hge : u.score ≤ t.score := Prod.Lex.monotone_fst _ _ hkey
      refine ⟨by rw [ht, hu]; exact congrArg some (le_antisymm hle hge), ?_⟩
      exact fun hexact o ho hsurpasses => absurd (hstrict hexact o ho hsurpasses) (not_lt.mpr hge)

end Choice

/-- Two models, one of them a little more often correct. -/
def closeCall (pool : List String) : RouteCall where
  pool
  objectives := [{ signal := "correctness" }]
  signals := [("a", { correctness := some 0 }), ("b", { correctness := some (1 / 10 ^ 13) })]

/-- Neither the order nor an unmeasured model changes the choice between the two. -/
theorem routeStep_close :
    (closeCall ["a", "c", "b"]).routeStep {} = (closeCall ["b", "a"]).routeStep {} := by
  have hspec := @routeStep_spec (closeCall ["b", "a"]) id {} (by decide) (by decide)
  refine hspec.2.1 ["a", "c", "b"] (by decide +kernel) fun m hm => ?_
  obtain ⟨o, -, hsome⟩ := hm
  obtain ⟨x, hx⟩ := Option.isSome_iff_exists.mp hsome
  obtain ⟨sig, hsig⟩ := measured_sig hx
  have hmodel : m = "a" ∨ m = "b" := by
    by_contra hother
    simp only [not_or] at hother
    simp [closeCall, Dict.get?, Ne.symm hother.1, Ne.symm hother.2] at hsig
  obtain rfl | rfl := hmodel <;> simp [closeCall]

/-- The candidate with less correctness is chosen, as the difference does not count. -/
theorem dominated_chosen :
    (closeCall ["b", "a"]).routeStep {} = .ok "a" ∧ (closeCall ["b", "a"]).Dominates "b" "a" ∧
      (closeCall ["b", "a"]).measured "b" "correctness" = some (1 / 10 ^ 13) ∧
      (closeCall ["b", "a"]).measured "a" "correctness" = some 0 := by
  have hb : (closeCall ["b", "a"]).measured "b" "correctness" = some (1 / 10 ^ 13) := rfl
  have ha : (closeCall ["b", "a"]).measured "a" "correctness" = some 0 := rfl
  have hscored : (closeCall ["b", "a"]).scoreEligible ["b", "a"] =
      [⟨"b", 1 / 2, 0⟩, ⟨"a", 1 / 2, 0⟩] := by decide +kernel
  have hsorted : [(⟨"b", 1 / 2, 0⟩ : Scored), ⟨"a", 1 / 2, 0⟩].mergeSort
      (fun s t => s.model ≤ t.model) = [⟨"a", 1 / 2, 0⟩, ⟨"b", 1 / 2, 0⟩] := by
    simp [List.mergeSort, List.MergeSort.Internal.splitInTwo]
  have hselect : (closeCall ["b", "a"]).select [⟨"b", 1 / 2, 0⟩, ⟨"a", 1 / 2, 0⟩] =
      some "a" := by
    rw [RouteCall.select, hsorted]
    decide +kernel
  refine ⟨?_, fun o ho => ?_, hb, ha⟩
  · change (match RouteCall.select _ (RouteCall.scoreEligible _ ["b", "a"]) with
      | some model => Except.ok model
      | none       => _) = _
    rw [hscored, hselect]
  · obtain rfl : o = { signal := "correctness" } := by
      simpa [RouteCall.valid, closeCall, signalFields] using ho
    exact ⟨_, _, hb, ha, by norm_num [AtLeast]⟩

end AgenticDynamics.Control.Routing
