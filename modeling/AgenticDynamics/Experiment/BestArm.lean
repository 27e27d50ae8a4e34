import AgenticDynamics.Experiment.ArmComparison

/-!
# The best arm

The best arm has the least loss after the rounding, whatever the order of the results, and the
first of the arms with that loss is named.
-/

namespace AgenticDynamics.Experiment.Arms

open Python

lemma round4_zero : round4 0 = 0 := by decide +kernel

lemma abs_round4_sub_le (x : ℚ) : |round4 x - x| ≤ 1 / 20000 := by
  have hround := abs_le.mp (abs_roundHalfEven_sub_le (x * 10 ^ 4))
  rw [round4, abs_le]
  constructor
  · rw [le_sub_iff_add_le, le_div_iff₀ (by norm_num)]
    linarith [hround.1]
  · rw [sub_le_iff_le_add, div_le_iff₀ (by norm_num)]
    linarith [hround.2]

lemma round4_nonneg {x : ℚ} (h : 0 ≤ x) : 0 ≤ round4 x := by
  have hfloor : (0 : ℤ) ≤ ⌊x * 10 ^ 4⌋ := Int.floor_nonneg.mpr (by positivity)
  have hwhole : (0 : ℤ) ≤ roundHalfEven (x * 10 ^ 4) := by
    rw [roundHalfEven]
    split_ifs <;> omega
  rw [round4]
  have hcast : (0 : ℚ) ≤ roundHalfEven (x * 10 ^ 4) := by exact_mod_cast hwhole
  positivity

namespace ArmQuery

variable {q : ArmQuery} {results results' : List (Dict Json)} {arm obj best : String}

/-! ### The order of the results -/

lemma values_perm (h : results.Perm results') :
    (q.values results obj).Perm (q.values results' obj) := by
  unfold values
  split
  · exact .nil
  · exact h.filterMap _

lemma values_eq_nil (h : results.Perm results') :
    q.values results obj = [] ↔ q.values results' obj = [] := by
  rw [← List.length_eq_zero_iff, ← List.length_eq_zero_iff, (values_perm h).length_eq]

lemma group_perm (h : results.Perm results') :
    (q.group results arm).Perm (q.group results' arm) := h.filter _

lemma comparisonObjectives_perm (h : results.Perm results') :
    q.comparisonObjectives results = q.comparisonObjectives results' :=
  List.filter_congr fun obj _ => by simp [@values_eq_nil q _ _ obj h]

lemma covered_perm (h : results.Perm results') :
    q.covered results arm = q.covered results' arm := by
  rw [covered, covered, comparisonObjectives_perm h]
  exact List.filter_congr fun obj _ => by simp [@values_eq_nil q _ _ obj (group_perm h)]

lemma missing_perm (h : results.Perm results') :
    q.missing results arm = q.missing results' arm := by
  rw [missing, missing, comparisonObjectives_perm h]
  exact List.filter_congr fun obj _ => by simp [@values_eq_nil q _ _ obj (group_perm h)]

lemma eligible_perm (h : results.Perm results') :
    q.eligible results arm = q.eligible results' arm := by
  have hrate (obj : String) : q.rate results arm obj = q.rate results' arm obj := by
    rw [rate, rate, (values_perm (group_perm h)).length_eq, (group_perm h).length_eq]
  have hunder : q.under results arm = q.under results' arm := by
    rw [under, under, covered_perm h]
    exact List.filter_congr fun obj _ => by rw [hrate]
  rw [eligible, eligible, missing_perm h, hunder]

lemma weighted_perm (h : results.Perm results') :
    q.weighted results arm = q.weighted results' arm := by
  rw [weighted, weighted, covered_perm h]
  refine congrArg List.sum (List.map_congr_left fun obj _ => ?_)
  have hvalues := @values_perm q _ _ obj (@group_perm q _ _ arm h)
  rw [mean, mean, hvalues.sum_eq, hvalues.length_eq]

lemma eligibleArms_perm (h : results.Perm results') :
    (q.eligibleArms results).Perm (q.eligibleArms results') := by
  have harms : (q.arms results).Perm (q.arms results') :=
    (List.perm_ext_iff_of_nodup (nodup_firsts _) (nodup_firsts _)).mpr fun arm => by
      simp only [mem_firsts, (h.filterMap q.armOf).mem_iff]
  have hsame : q.eligible results = q.eligible results' := funext fun _ => eligible_perm h
  rw [eligibleArms, eligibleArms, hsame]
  exact harms.filter _

/-! ### The choice -/

/-- The arm is eligible, and no eligible arm has less loss after the rounding. -/
def Least (q : ArmQuery) (results : List (Dict Json)) (best : String) : Prop :=
  best ∈ q.eligibleArms results ∧
    ∀ arm ∈ q.eligibleArms results, q.weightedLoss results best ≤ q.weightedLoss results arm

lemma least_of_bestArm (h : q.bestArm results = some best) : q.Least results best := by
  rw [bestArm] at h
  split_ifs at h
  exact ⟨List.argmin_mem h, fun arm harm => List.le_of_mem_argmin harm h⟩

lemma bestArm_isSome_iff : (q.bestArm results).isSome ↔
    q.comparisonObjectives results ≠ [] ∧ q.eligibleArms results ≠ [] := by
  have harms (h : q.arms results = []) : q.eligibleArms results = [] := by
    simp [eligibleArms, h]
  simp only [bestArm, emptyState]
  split_ifs <;> simp_all [Option.isSome_iff_ne_none, List.argmin_eq_none]

lemma Least.perm (h : results.Perm results') : q.Least results best ↔ q.Least results' best := by
  have hloss (arm : String) : q.weightedLoss results arm = q.weightedLoss results' arm :=
    congrArg round4 (weighted_perm h)
  simp only [Least, (eligibleArms_perm h).mem_iff, hloss]

/-- The best arm of the results in another order. -/
lemma bestArm_perm (h : results.Perm results') (hbest : q.bestArm results = some best) :
    ∃ best', q.bestArm results' = some best' ∧ q.Least results best' := by
  have hsome := bestArm_isSome_iff.mp (by rw [hbest]; rfl : (q.bestArm results).isSome)
  have hne : q.eligibleArms results' ≠ [] := fun hnil =>
    hsome.2 (List.perm_nil.mp (hnil ▸ eligibleArms_perm h))
  obtain ⟨best', hbest'⟩ := Option.isSome_iff_exists.mp
    (bestArm_isSome_iff.mpr ⟨comparisonObjectives_perm h ▸ hsome.1, hne⟩)
  exact ⟨best', hbest', (Least.perm h).mpr (least_of_bestArm hbest')⟩

end ArmQuery

/-- Two arms whose costs are the same after the rounding. -/
def closeQuery : ArmQuery where
  str v := match v with
    | .str s => s
    | _      => ""
  armFactor := "model"
  loss := [("cost", 1)]

def closeRow (arm : String) (cost : ℚ) : Dict Json :=
  [("model", .str arm), ("cost", .float (.finite cost))]

end AgenticDynamics.Experiment.Arms
