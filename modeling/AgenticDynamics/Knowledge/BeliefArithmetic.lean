import AgenticDynamics.Knowledge.BeliefChain

/-!
# Belief arithmetic

Every update of a belief normalizes the payload again, counts one signal and computes the
posterior from the prior and the counts. Over a sequence of updates the counts add up, the prior
stays, and the posterior is the one of the final counts: rounding is monotone, and what is rounded
once stays as it is.
-/

namespace AgenticDynamics.Knowledge.Beliefs

open Python

/-! ### Rounding -/

lemma roundHalfEven_mono {x y : ℚ} (h : x ≤ y) : roundHalfEven x ≤ roundHalfEven y := by
  by_contra hlt
  have hstep : (roundHalfEven y : ℚ) + 1 ≤ roundHalfEven x := by
    exact_mod_cast not_le.mp hlt
  have hx := (abs_le.mp (abs_roundHalfEven_sub_le x)).2
  have hy := (abs_le.mp (abs_roundHalfEven_sub_le y)).1
  have heq : x = y := le_antisymm h (by linarith)
  exact hlt (heq ▸ le_refl _)

lemma round6_mono {x y : ℚ} (h : x ≤ y) : round6 x ≤ round6 y := by
  have hround : (roundHalfEven (x * 1000000) : ℚ) ≤ roundHalfEven (y * 1000000) := by
    exact_mod_cast roundHalfEven_mono (mul_le_mul_of_nonneg_right h (by norm_num))
  exact div_le_div_of_nonneg_right hround (by norm_num)

lemma round6_round6 (x : ℚ) : round6 (round6 x) = round6 x := by
  have hwhole : round6 x * 1000000 = roundHalfEven (x * 1000000) := by
    rw [round6]
    ring
  rw [round6, hwhole, roundHalfEven_intCast]
  rfl

lemma confidence_round6 {q : ℚ} (h : 0 ≤ q ∧ q ≤ 1) : Confidence (round6 q) where
  nonneg := by
    have hzero : round6 0 = 0 := by simp [round6, roundHalfEven]
    exact hzero ▸ round6_mono h.1
  le_one := by
    have hone : round6 1 = 1 := by
      have hint : roundHalfEven (1 * 1000000) = 1000000 := by
        exact_mod_cast roundHalfEven_intCast 1000000
      rw [round6, hint]
      norm_num
    exact hone ▸ round6_mono h.2
  rounded := round6_round6 q

/-! ### The posterior -/

section Posterior

variable {p : ℚ} {n m : ℕ}

/-- The mean that `compute_posterior` rounds. -/
def posteriorMean (p : ℚ) (n m : ℕ) : ℚ := (p * 2 + n) / (2 + n + m)

lemma computePosterior_eq (p : ℚ) (n m : ℕ) :
    computePosterior p n m = round6 (posteriorMean p n m) := by
  have hsum : p * 2 + (1 - p) * 2 + n + m = 2 + (n : ℚ) + m := by ring
  rw [computePosterior, posteriorMean, hsum]

variable (hp : 0 ≤ p ∧ p ≤ 1)
include hp

lemma confidence_computePosterior : Confidence (computePosterior p n m) := by
  rw [computePosterior_eq]
  refine confidence_round6 ⟨?_, ?_⟩
  · have := hp.1
    unfold posteriorMean
    positivity
  · rw [posteriorMean, div_le_one (by positivity)]
    have := hp.2
    have hm : (0 : ℚ) ≤ m := Nat.cast_nonneg m
    linarith

lemma computePosterior_confirm : computePosterior p n m ≤ computePosterior p (n + 1) m := by
  rw [computePosterior_eq, computePosterior_eq]
  refine round6_mono ?_
  rw [posteriorMean, posteriorMean, div_le_div_iff₀ (by positivity) (by positivity)]
  have hm : (0 : ℚ) ≤ m := Nat.cast_nonneg m
  push_cast
  nlinarith [hp.2]

lemma computePosterior_disconfirm : computePosterior p n (m + 1) ≤ computePosterior p n m := by
  rw [computePosterior_eq, computePosterior_eq]
  refine round6_mono (div_le_div_of_nonneg_left ?_ (by positivity) ?_)
  · have := hp.1
    positivity
  · push_cast
    linarith

end Posterior

/-! ### The numbers of a payload -/

/-- The prior, the counts and the posterior. -/
structure Numbers where
  prior : ℚ
  confirmations : ℕ
  disconfirmations : ℕ
  posterior : ℚ

def BeliefBody.numbers (b : BeliefBody) : Numbers :=
  ⟨b.priorConfidence, b.nConfirmations, b.nDisconfirmations, b.posteriorConfidence⟩

structure Numbers.Sound (x : Numbers) : Prop where
  prior : Confidence x.prior
  posterior : Confidence x.posterior

/-- The posterior is the one that the prior and the counts imply. -/
def Numbers.Implied (x : Numbers) : Prop :=
  x.posterior = computePosterior x.prior x.confirmations x.disconfirmations

def Numbers.after (x : Numbers) : Signal → Numbers
  | .confirm =>
    { x with
      confirmations := x.confirmations + 1
      posterior := computePosterior x.prior (x.confirmations + 1) x.disconfirmations }
  | .disconfirm =>
    { x with
      disconfirmations := x.disconfirmations + 1
      posterior := computePosterior x.prior x.confirmations (x.disconfirmations + 1) }

lemma Numbers.Sound.after {x : Numbers} (h : x.Sound) (signal : Signal) :
    (x.after signal).Sound := by
  have hp := And.intro h.prior.nonneg h.prior.le_one
  cases signal with
  | confirm => exact ⟨h.prior, confidence_computePosterior hp⟩
  | disconfirm => exact ⟨h.prior, confidence_computePosterior hp⟩

lemma Numbers.implied_after (x : Numbers) (signal : Signal) : (x.after signal).Implied := by
  cases signal <;> rfl

lemma Numbers.Sound.monotone {x : Numbers} (h : x.Sound) (himplied : x.Implied) :
    x.posterior ≤ (x.after .confirm).posterior ∧ (x.after .disconfirm).posterior ≤ x.posterior := by
  have hp := And.intro h.prior.nonneg h.prior.le_one
  rw [himplied]
  exact ⟨computePosterior_confirm hp, computePosterior_disconfirm hp⟩

section Reading

variable {host : Host} {repositoryId : String} {belief : Dict Json} {body : BeliefBody}

/-- What `belief_payload` reads of the numbers of a payload. -/
def numbersOf (host : Host) (belief : Dict Json) : Except BeliefError Numbers := do
  let prior := round6 (← confidenceValue host belief "prior_confidence")
  let confirmations ← countValue host belief "n_confirmations"
  let disconfirmations ← countValue host belief "n_disconfirmations"
  let posterior ← posteriorValue host belief prior confirmations disconfirmations
  return { prior, confirmations, disconfirmations, posterior }

lemma confidenceValue_range {field : String} {q : ℚ}
    (h : confidenceValue host belief field = .ok q) : 0 ≤ q ∧ q ≤ 1 := by
  rw [confidenceValue] at h
  split at h
  · cases h
  · cases h
  · cases h
  · cases h
  · split at h
    · split_ifs at h with hrange
      · cases h
        exact hrange
    · cases h
    · split_ifs at h

lemma posteriorValue_confidence {p q : ℚ} {n m : ℕ} (hp : 0 ≤ p ∧ p ≤ 1)
    (h : posteriorValue host belief p n m = .ok q) : Confidence q := by
  rw [posteriorValue] at h
  split at h
  · cases h
    exact confidence_computePosterior hp
  · cases hvalue : confidenceValue host belief "posterior_confidence" with
    | error e =>
      rw [hvalue] at h
      cases h
    | ok given =>
      rw [hvalue] at h
      cases h
      exact confidence_round6 (confidenceValue_range hvalue)

lemma numbersOf_payload (h : beliefPayload host belief repositoryId = .ok body) :
    numbersOf host belief = .ok body.numbers ∧ body.numbers.Sound := by
  simp only [beliefPayload, bind_eq_ok] at h
  obtain ⟨_, -, _, -, _, -, prior, hprior, _, hconfirm, _, hdisconfirm, _, -, _, hposterior, _, -,
    hbody⟩ := h
  cases hbody
  have hp : Confidence (round6 prior) := confidence_round6 (confidenceValue_range hprior)
  refine ⟨?_, hp, posteriorValue_confidence ⟨hp.nonneg, hp.le_one⟩ hposterior⟩
  simp only [numbersOf, hprior, hconfirm, hdisconfirm, hposterior, bind, Except.bind, pure,
    Except.pure]
  rfl

lemma numbersOf_toDict (h : body.numbers.Sound) :
    numbersOf host body.toDict = .ok body.numbers := by
  have hprior : confidenceValue host body.toDict "prior_confidence" = .ok body.priorConfidence :=
    confidenceValue_confidence (fun _ => rfl) rfl h.prior
  have hconfirm : countValue host body.toDict "n_confirmations" = .ok body.nConfirmations :=
    countValue_int rfl
  have hdisconfirm :
      countValue host body.toDict "n_disconfirmations" = .ok body.nDisconfirmations :=
    countValue_int rfl
  have hgiven : confidenceValue host body.toDict "posterior_confidence" =
      .ok body.posteriorConfidence := confidenceValue_confidence (fun _ => rfl) rfl h.posterior
  have hposterior : posteriorValue host body.toDict body.priorConfidence body.nConfirmations
      body.nDisconfirmations = .ok body.posteriorConfidence := by
    have hrounded : round6 body.posteriorConfidence = body.posteriorConfidence :=
      h.posterior.rounded
    have hfield : Dict.get? "posterior_confidence" body.toDict =
        some (.float (.finite body.posteriorConfidence)) := rfl
    rw [posteriorValue, hfield]
    simp [hgiven, Except.map, hrounded]
  have hrounded : round6 body.priorConfidence = body.priorConfidence := h.prior.rounded
  simp only [numbersOf, hprior, hconfirm, hdisconfirm, hposterior, hrounded, bind, Except.bind,
    pure, Except.pure]
  rfl

end Reading

/-! ### Runs of updates -/

/-- What one call of `update_belief` is given. -/
structure BeliefSignal where
  signal : Signal
  citation : Option String
  lastUpdated : Option String
  now : String

def BeliefSignal.stamp (u : BeliefSignal) : String := Python.orElse u.lastUpdated u.now

def updateBeliefs (host : Host) (current : Dict Json) :
    List BeliefSignal → Except BeliefError (Dict Json)
  | []      => .ok current
  | u :: us => do
    let updated ← updateBelief host current u.signal u.citation u.lastUpdated u.now
    updateBeliefs host updated.toDict us

def countOfSignal (signal : Signal) (us : List BeliefSignal) : ℕ :=
  us.countP fun u => u.signal = signal

def Numbers.afterAll (x : Numbers) (us : List BeliefSignal) : Numbers :=
  us.foldl (fun x u => x.after u.signal) x

section Run

variable {host : Host} {current final : Dict Json} {base body : BeliefBody} {u : BeliefSignal}
  {us : List BeliefSignal} {x : Numbers}

lemma numbersOf_update
    (h : updateBelief host current u.signal u.citation u.lastUpdated u.now = .ok body) :
    ∃ x, numbersOf host current = .ok x ∧ x.Sound ∧ body.numbers = x.after u.signal := by
  simp only [updateBelief, bind_eq_ok] at h
  obtain ⟨base, hbase, hbody⟩ := h
  obtain ⟨hnumbers, hsound⟩ := numbersOf_payload hbase
  refine ⟨base.numbers, hnumbers, hsound, ?_⟩
  cases hbody
  cases u.signal <;> rfl

lemma numbersOf_updates (hx : numbersOf host current = .ok x) (hsound : x.Sound)
    (h : updateBeliefs host current us = .ok final) :
    numbersOf host final = .ok (x.afterAll us) ∧ (x.afterAll us).Sound := by
  induction us generalizing current x with
  | nil =>
    cases h
    exact ⟨hx, hsound⟩
  | cons u us ih =>
    simp only [updateBeliefs, bind_eq_ok] at h
    obtain ⟨body, hbody, hrest⟩ := h
    obtain ⟨x', hx', -, hafter⟩ := numbersOf_update hbody
    obtain rfl : x' = x := by
      rw [hx, Except.ok.injEq] at hx'
      exact hx'.symm
    have hbodySound : body.numbers.Sound := hafter ▸ hsound.after u.signal
    have hread : numbersOf host body.toDict = .ok body.numbers := numbersOf_toDict hbodySound
    rw [hafter] at hread hbodySound
    exact ih hread hbodySound hrest

lemma afterAll_spec (x : Numbers) (us : List BeliefSignal) :
    (x.afterAll us).prior = x.prior ∧
      (x.afterAll us).confirmations = x.confirmations + countOfSignal .confirm us ∧
      (x.afterAll us).disconfirmations = x.disconfirmations + countOfSignal .disconfirm us ∧
      (us ≠ [] ∨ x.Implied → (x.afterAll us).Implied) := by
  induction us using List.reverseRecOn with
  | nil => simp [Numbers.afterAll, countOfSignal]
  | append_singleton us u ih =>
    obtain ⟨hprior, hconfirm, hdisconfirm, -⟩ := ih
    have hstep : x.afterAll (us ++ [u]) = (x.afterAll us).after u.signal := by
      simp [Numbers.afterAll]
    rw [hstep]
    refine ⟨?_, ?_, ?_, fun _ => Numbers.implied_after _ _⟩
    · cases u.signal <;> exact hprior
    · cases hu : u.signal <;> simp [Numbers.after, countOfSignal, hu, ← add_assoc] <;>
        simpa [countOfSignal] using hconfirm
    · cases hu : u.signal <;> simp [Numbers.after, countOfSignal, hu, ← add_assoc] <;>
        simpa [countOfSignal] using hdisconfirm

structure Ready (b : BeliefBody) : Prop where
  hypothesis : strip b.hypothesis ≠ ""
  domain : strip b.domain ≠ ""
  lastUpdated : strip b.lastUpdated ≠ ""
  ladder : b.evidenceClass ∈ evidenceLadder
  numbers : b.numbers.Sound

lemma evidenceClass_mem {value : String} (h : evidenceClassValue host current = .ok value) :
    value ∈ evidenceLadder := by
  rw [evidenceClassValue] at h
  split_ifs at h with hmem
  cases h
  exact hmem

lemma ready_of_update (hstamp : strip u.stamp ≠ "")
    (h : updateBelief host current u.signal u.citation u.lastUpdated u.now = .ok body) :
    Ready body := by
  have hsound : body.numbers.Sound := by
    obtain ⟨x, -, hx, hafter⟩ := numbersOf_update h
    exact hafter ▸ hx.after _
  simp only [updateBelief, bind_eq_ok] at h
  obtain ⟨base, hbase, hbody⟩ := h
  simp only [beliefPayload, bind_eq_ok] at hbase
  obtain ⟨hypothesis, hhypothesis, domain, hdomain, _, -, _, -, _, -, _, -, class_, hclass, _, -, _,
    -, hpayload⟩ := hbase
  cases hpayload
  cases hbody
  rw [requiredValue_eq_ok] at hhypothesis hdomain
  refine ⟨?_, ?_, hstamp, evidenceClass_mem hclass, hsound⟩
  · rw [hhypothesis.1, strip_strip, ← hhypothesis.1]
    exact hhypothesis.2
  · rw [hdomain.1, strip_strip, ← hdomain.1]
    exact hdomain.2

lemma requiredValue_written {field s : String} (hfield : Dict.get? field current = some (.str s))
    (hs : strip s ≠ "") : requiredValue host current field = .ok (strip s) := by
  rw [requiredValue_eq_ok, textOf_str hfield]
  exact ⟨rfl, hs⟩

lemma Ready.valid (hupper : ∀ c ∈ evidenceLadder, host.upper c = c) (h : Ready body) :
    ∃ base, beliefPayload host body.toDict repositoryIdDefault = .ok base := by
  have hhypothesis : requiredValue host body.toDict "hypothesis" = .ok (strip body.hypothesis) :=
    requiredValue_written rfl h.hypothesis
  have hdomain : requiredValue host body.toDict "domain" = .ok (strip body.domain) :=
    requiredValue_written rfl h.domain
  have hlast : requiredValue host body.toDict "last_updated" = .ok (strip body.lastUpdated) :=
    requiredValue_written rfl h.lastUpdated
  have hclass : evidenceClassValue host body.toDict = .ok body.evidenceClass := by
    have hstrip : ∀ c ∈ evidenceLadder, strip c = c ∧ c ≠ "" := by decide
    have hfield : Dict.get? "evidence_class" body.toDict = some (.str body.evidenceClass) := rfl
    have hclass := hstrip _ h.ladder
    rw [evidenceClassValue, hfield]
    simp [Json.orElse, Json.truthy, hclass.2, Json.text, hclass.1, hupper _ h.ladder, h.ladder]
  have hcitations : listValue host body.toDict "evidence_citations" = .ok body.evidenceCitations :=
    listValue_strings rfl
  have hread : numbersOf host body.toDict = .ok body.numbers := numbersOf_toDict h.numbers
  simp only [numbersOf, bind_eq_ok] at hread
  obtain ⟨prior, hprior, n, hn, m, hm, posterior, hposterior, -⟩ := hread
  simp only [beliefPayload, hhypothesis, hdomain, hlast, hprior, hn, hm, hclass, hposterior,
    hcitations, bind, Except.bind, pure, Except.pure]
  exact ⟨_, rfl⟩

lemma updateBeliefs_returns (hupper : ∀ c ∈ evidenceLadder, host.upper c = c)
    (hvalid : beliefPayload host current repositoryIdDefault = .ok base)
    (hstamps : ∀ u ∈ us, strip u.stamp ≠ "") :
    ∃ final, updateBeliefs host current us = .ok final := by
  induction us generalizing current base with
  | nil => exact ⟨current, rfl⟩
  | cons u us ih =>
    obtain ⟨hu, hus⟩ := List.forall_mem_cons.mp hstamps
    obtain ⟨body, hbody⟩ : ∃ body,
        updateBelief host current u.signal u.citation u.lastUpdated u.now = .ok body := by
      rw [updateBelief, hvalid]
      exact ⟨_, rfl⟩
    obtain ⟨base', hbase'⟩ := (ready_of_update hu hbody).valid hupper
    obtain ⟨final, hfinal⟩ := ih hbase' hus
    exact ⟨final, by rw [updateBeliefs, hbody]; exact hfinal⟩

/-- Over any sequence of updates the counts add up, the prior stays, and the posterior is a
confidence. It is the one that the prior and the counts imply once there was an update, or where the
payload started with it; and then the next signal moves it its own way or not at all. -/
theorem belief_arithmetic (hupper : ∀ c ∈ evidenceLadder, host.upper c = c)
    (hvalid : beliefPayload host current repositoryIdDefault = .ok base) (us : List BeliefSignal) :
    ((∀ u ∈ us, strip u.stamp ≠ "") → ∃ final, updateBeliefs host current us = .ok final) ∧
      ∀ final, updateBeliefs host current us = .ok final →
        ∃ x, numbersOf host final = .ok x ∧ x.prior = base.priorConfidence ∧
          x.confirmations = base.nConfirmations + countOfSignal .confirm us ∧
          x.disconfirmations = base.nDisconfirmations + countOfSignal .disconfirm us ∧
          0 ≤ x.posterior ∧ x.posterior ≤ 1 ∧
          (us ≠ [] ∨ base.numbers.Implied →
            x.posterior = computePosterior base.priorConfidence x.confirmations x.disconfirmations ∧
              ∀ u next, updateBeliefs host current (us ++ [u]) = .ok next →
                ∃ y, numbersOf host next = .ok y ∧
                  (u.signal = .confirm → x.posterior ≤ y.posterior) ∧
                  (u.signal = .disconfirm → y.posterior ≤ x.posterior)) := by
  refine ⟨updateBeliefs_returns hupper hvalid, fun final hfinal => ?_⟩
  obtain ⟨hnumbers, hsound⟩ := numbersOf_payload hvalid
  obtain ⟨hread, hfinalSound⟩ := numbersOf_updates hnumbers hsound hfinal
  obtain ⟨hprior, hconfirm, hdisconfirm, himplied⟩ := afterAll_spec base.numbers us
  refine ⟨_, hread, hprior, hconfirm, hdisconfirm, hfinalSound.posterior.nonneg,
    hfinalSound.posterior.le_one, fun hstart => ⟨?_, fun u next hnext => ?_⟩⟩
  · have hposterior := himplied hstart
    rwa [Numbers.Implied, hprior] at hposterior
  · obtain ⟨hreadNext, -⟩ := numbersOf_updates hnumbers hsound hnext
    obtain ⟨hup, hdown⟩ := hfinalSound.monotone (himplied hstart)
    refine ⟨_, hreadNext, fun hsignal => ?_, fun hsignal => ?_⟩
    · simpa [Numbers.afterAll, hsignal] using hup
    · simpa [Numbers.afterAll, hsignal] using hdown

end Run

/-! ### A posterior that is given -/

def plainHost : Host where
  loads _ := .error ("JSONDecodeError", "")
  repr _ := ""
  upper := id
  lower := id
  sha256 := id
  dumps _ := ""
  fromisoformat _ := none

/-- A belief at even odds that states its posterior itself. -/
def stated (posterior : ℚ) : Dict Json :=
  [("hypothesis", .str "the loop converges"), ("domain", .str "fleet"),
    ("last_updated", .str "2026-09-01"), ("prior_confidence", .float (.finite (1 / 2))),
    ("posterior_confidence", .float (.finite posterior)), ("evidence_class", .str "[H]")]

def confirmation : BeliefSignal := ⟨.confirm, none, none, "2026-09-02"⟩

lemma stated_computed :
    (∀ q ∈ [(1 / 2 : ℚ), 99 / 100],
      (numbersOf plainHost (stated q)).toOption.map Numbers.posterior = some q ∧
        (beliefPayload plainHost (stated q) repositoryIdDefault).toOption.isSome) ∧
    ((updateBeliefs plainHost (stated (99 / 100)) [confirmation]).toOption.bind fun final =>
      (numbersOf plainHost final).toOption.map Numbers.posterior) = some (666667 / 1000000) := by
  decide +kernel

lemma isOk_of_isSome {ε α : Type} {x : Except ε α} (h : x.toOption.isSome) : ∃ a, x = .ok a := by
  cases x with
  | error e => cases h
  | ok a => exact ⟨a, rfl⟩

/-- A confirmation lowers a posterior that was stated too high. -/
theorem confirmation_lowers_stated : ∃ base final x y,
    beliefPayload plainHost (stated (99 / 100)) repositoryIdDefault = .ok base ∧
      numbersOf plainHost (stated (99 / 100)) = .ok x ∧
      updateBeliefs plainHost (stated (99 / 100)) [confirmation] = .ok final ∧
      numbersOf plainHost final = .ok y ∧ y.posterior < x.posterior := by
  obtain ⟨hstated, hupdated⟩ := stated_computed
  obtain ⟨hposterior, hpayload⟩ := hstated (99 / 100) (by simp)
  obtain ⟨x, hx, hxq⟩ := ok_of_toOption_map hposterior
  obtain ⟨base, hbase⟩ := isOk_of_isSome hpayload
  obtain ⟨final, hfinal, hread⟩ := Option.bind_eq_some_iff.mp hupdated
  obtain ⟨y, hy, hyq⟩ := ok_of_toOption_map hread
  obtain ⟨final', hfinal', rfl⟩ := ok_of_toOption_map
    (show (updateBeliefs plainHost (stated (99 / 100)) [confirmation]).toOption.map id =
        some final by
      rw [hfinal]; rfl)
  refine ⟨base, final', x, y, hbase, hx, hfinal', hy, ?_⟩
  rw [hxq, hyq]
  norm_num

/-- A belief at even odds is confirmed once. -/
theorem even_belief_confirmed : ∃ final x,
    updateBeliefs plainHost (stated (1 / 2)) [confirmation] = .ok final ∧
      numbersOf plainHost final = .ok x ∧ 0 ≤ x.posterior ∧ x.posterior ≤ 1 := by
  obtain ⟨base, hbase⟩ := isOk_of_isSome (stated_computed.1 (1 / 2) (by simp)).2
  obtain ⟨hreturns, hnumbers⟩ := belief_arithmetic (fun _ _ => rfl) hbase [confirmation]
  obtain ⟨final, hfinal⟩ := hreturns (by decide)
  obtain ⟨x, hx, -, -, -, hnonneg, hle, -⟩ := hnumbers final hfinal
  exact ⟨final, x, hfinal, hx, hnonneg, hle⟩

end AgenticDynamics.Knowledge.Beliefs
