import AgenticDynamics.Execution.RunSuccess

/-!
# What the invocations of a phase cost

The calls of the executor that the turns of one phase make, the rows in which their cost is kept,
and the record that sums the rows up.
-/

namespace AgenticDynamics.Execution

open Python

/-! ### Amounts -/

namespace TokenCounts

lemma add_def (a b : TokenCounts) : a + b = ⟨a.input + b.input, a.output + b.output,
    a.reasoning + b.reasoning, a.answer + b.answer, a.explanation + b.explanation,
    a.total + b.total⟩ := rfl

lemma zero_def : (0 : TokenCounts) = ⟨0, 0, 0, 0, 0, 0⟩ := rfl

instance : AddCommMonoid TokenCounts where
  add_assoc a b c := by simp [add_def, add_assoc]
  zero_add a := by simp [add_def, zero_def]
  add_zero a := by simp [add_def, zero_def]
  add_comm a b := by simp [add_def, add_comm]
  nsmul := nsmulRec

end TokenCounts

/-- A whole number of millionths of a dollar. -/
def Whole (x : ℚ) : Prop := ∃ k : ℤ, x = k / 10 ^ 6

lemma abs_round6_sub_le (x : ℚ) : |round6 x - x| ≤ 1 / (2 * 10 ^ 6) := by
  have h := abs_roundHalfEven_sub_le (x * 10 ^ 6)
  have hscale : round6 x - x = ((roundHalfEven (x * 10 ^ 6) : ℚ) - x * 10 ^ 6) / 10 ^ 6 := by
    rw [round6]
    ring
  rw [hscale, abs_div, abs_of_pos (show (0 : ℚ) < 10 ^ 6 by norm_num), ← div_div]
  exact div_le_div_of_nonneg_right h (by norm_num)

lemma Whole.round6_eq {x : ℚ} (h : Whole x) : round6 x = x := by
  obtain ⟨k, rfl⟩ := h
  rw [round6, div_mul_cancel₀ _ (by norm_num), roundHalfEven_intCast]

lemma Whole.add {x y : ℚ} (hx : Whole x) (hy : Whole y) : Whole (x + y) := by
  obtain ⟨k, rfl⟩ := hx
  obtain ⟨m, rfl⟩ := hy
  exact ⟨k + m, by push_cast; ring⟩

lemma whole_zero : Whole 0 := ⟨0, by simp⟩

/-! ### Rows and records -/

abbrev Paid := ℚ × TokenCounts

def AttemptRow.paid (row : AttemptRow) : Paid := (row.costUsd, row.tokens)

def AgentResult.paid (result : AgentResult) : Paid := (result.costUsd, result.tokens)

/-- What the executor reports of a call: nothing where it raised, and no cost where it stalled. -/
def Call.paid (call : Call) : Option Paid :=
  match call.answer with
  | .raised _        => none
  | .stalled _       => some 0
  | .answered result => some result.paid

/-- The record carries the sum of these invocations, each addition rounded to six decimals. -/
structure PhaseResult.Settles (pr : PhaseResult) (paid : List Paid) : Prop where
  tokens : pr.tokens = (paid.map Prod.snd).sum
  cost : |pr.costUsd - (paid.map Prod.fst).sum| ≤ paid.length / (2 * 10 ^ 6)
  exact : (∀ p ∈ paid, Whole p.1) → pr.costUsd = (paid.map Prod.fst).sum
  attempts : pr.attempts.map AttemptRow.paid = if 1 < paid.length then paid else []

lemma foldl_addAttempt (pr : PhaseResult) (rows : List AttemptRow) :
    (rows.foldl PhaseResult.addAttempt pr).tokens = pr.tokens + (rows.map AttemptRow.tokens).sum ∧
    |(rows.foldl PhaseResult.addAttempt pr).costUsd -
      (pr.costUsd + (rows.map AttemptRow.costUsd).sum)| ≤ rows.length / (2 * 10 ^ 6) ∧
    (Whole pr.costUsd → (∀ row ∈ rows, Whole row.costUsd) →
      (rows.foldl PhaseResult.addAttempt pr).costUsd =
        pr.costUsd + (rows.map AttemptRow.costUsd).sum) ∧
    (rows.foldl PhaseResult.addAttempt pr).attempts = pr.attempts := by
  induction rows generalizing pr with
  | nil => simp
  | cons row rows ih =>
    obtain ⟨htokens, hcost, hexact, hattempts⟩ := ih (pr.addAttempt row)
    rw [List.foldl_cons, List.map_cons, List.map_cons, List.sum_cons, List.sum_cons]
    refine ⟨?_, ?_, fun hwhole hrows => ?_, hattempts⟩
    · rw [htokens, PhaseResult.addAttempt, add_assoc]
    · have hround := abs_round6_sub_le (pr.costUsd + row.costUsd)
      have hadd : (pr.addAttempt row).costUsd = round6 (pr.costUsd + row.costUsd) := rfl
      rw [hadd] at hcost
      rw [abs_le] at hcost hround ⊢
      rw [List.length_cons, Nat.cast_add, Nat.cast_one, add_div]
      constructor <;> linarith [hcost.1, hcost.2, hround.1, hround.2]
    · have hsum := hwhole.add (hrows row (List.mem_cons_self ..))
      have hadd : (pr.addAttempt row).costUsd = pr.costUsd + row.costUsd := hsum.round6_eq
      rw [hexact (hadd ▸ hsum) fun row' hrow' => hrows row' (List.mem_cons_of_mem _ hrow'), hadd,
        add_assoc]

lemma settles_all {pr : PhaseResult} (hcost : pr.costUsd = 0) (htokens : pr.tokens = 0)
    (hattempts : pr.attempts = []) (rows : List AttemptRow) :
    (applyAttemptTotals pr rows true).Settles (rows.map AttemptRow.paid) := by
  obtain ⟨htokens', hcost', hexact, hattempts'⟩ := foldl_addAttempt pr rows
  rw [hcost, zero_add] at hcost' hexact
  rw [htokens, zero_add] at htokens'
  have hfst : (rows.map AttemptRow.paid).map Prod.fst = rows.map AttemptRow.costUsd := by
    rw [List.map_map]
    rfl
  have hsnd : (rows.map AttemptRow.paid).map Prod.snd = rows.map AttemptRow.tokens := by
    rw [List.map_map]
    rfl
  rw [applyAttemptTotals, if_pos rfl]
  refine ⟨?_, ?_, fun hwhole => ?_, ?_⟩
  · rw [hsnd, ← htokens']
    split_ifs <;> rfl
  · rw [hfst, List.length_map]
    split_ifs <;> exact hcost'
  · rw [hfst, ← hexact whole_zero fun row hrow => hwhole _ (List.mem_map_of_mem hrow)]
    split_ifs <;> rfl
  · rw [List.length_map]
    split_ifs
    · rfl
    · rw [hattempts', hattempts]
      rfl

lemma settles_last {pr : PhaseResult} {rows : List AttemptRow} {last : AttemptRow}
    (hpaid : last.paid = (pr.costUsd, pr.tokens)) (hattempts : pr.attempts = []) :
    (applyAttemptTotals pr (rows ++ [last]) false).Settles
      ((rows ++ [last]).map AttemptRow.paid) := by
  obtain ⟨htokens', hcost', hexact, hattempts'⟩ := foldl_addAttempt pr rows
  obtain ⟨hlastCost, hlastTokens⟩ := Prod.mk.inj hpaid
  have hfst : ((rows ++ [last]).map AttemptRow.paid).map Prod.fst =
      rows.map AttemptRow.costUsd ++ [pr.costUsd] := by
    rw [List.map_map, List.map_append, ← hlastCost]
    rfl
  have hsnd : ((rows ++ [last]).map AttemptRow.paid).map Prod.snd =
      rows.map AttemptRow.tokens ++ [pr.tokens] := by
    rw [List.map_map, List.map_append, ← hlastTokens]
    rfl
  have hdrop : (if false = true then rows ++ [last] else (rows ++ [last]).dropLast) = rows := by
    rw [if_neg (by decide), List.dropLast_concat]
  rw [applyAttemptTotals, hdrop]
  refine ⟨?_, ?_, fun hwhole => ?_, ?_⟩
  · rw [hsnd, List.sum_append, List.sum_singleton, add_comm, ← htokens']
    split_ifs <;> rfl
  · rw [hfst, List.sum_append, List.sum_singleton, add_comm, List.length_map, List.length_append]
    have hle : (rows.length : ℚ) / (2 * 10 ^ 6) ≤
        ((rows.length + [last].length : ℕ) : ℚ) / (2 * 10 ^ 6) := by
      push_cast
      gcongr
      simp
    split_ifs <;> exact hcost'.trans hle
  · have hwholes : Whole pr.costUsd ∧ ∀ row ∈ rows, Whole row.costUsd := by
      refine ⟨?_, fun row hrow => hwhole row.paid (List.mem_map_of_mem (by simp [hrow]))⟩
      rw [← hlastCost]
      exact hwhole last.paid (List.mem_map_of_mem (by simp))
    rw [hfst, List.sum_append, List.sum_singleton, add_comm, ← hexact hwholes.1 hwholes.2]
    split_ifs <;> rfl
  · rw [List.length_map]
    split_ifs
    · rfl
    · rw [hattempts', hattempts]
      rfl

/-! ### The invocations of one turn -/

section Turn

variable {w : Settings} {scene : Scene} {d : PhaseDef} {pr pr' : PhaseResult}
  {seeded executions attemptNo : ℕ} {rows seed : List AttemptRow} {l : Locals}

/-- What a loop of invocations adds to the rows it begins with: a row for each call that did not
raise, in order and numbered, and calls with attempt ordinals that follow one another. Where no call
raised, the last row is what the result has cost. -/
structure Attempted.Adds (w : Settings) (d : PhaseDef) (seeded executions attemptNo : ℕ)
    (pr : PhaseResult) (rows new : List AttemptRow) (t : Attempted) : Prop where
  rows_eq : t.rows = rows ++ new
  paid : new.map AttemptRow.paid = t.calls.filterMap Call.paid
  numbers : new.map AttemptRow.attemptNumber = List.range' (seeded + attemptNo) new.length
  ordinals : t.calls.map Call.attempt =
    List.range' (w.attemptBase + executions + attemptNo - 1) t.calls.length
  phase : ∀ call ∈ t.calls, call.phase = d.name
  record : t.record.costUsd = pr.costUsd ∧ t.record.tokens = pr.tokens ∧
    t.record.attempts = pr.attempts
  settled : t.raised = none → t.calls.length = new.length ∧
    ∃ before last, new = before ++ [last] ∧ last.paid = t.result.elim 0 AgentResult.paid

lemma Attempted.Adds.cons {t : Attempted} {new : List AttemptRow} {row : AttemptRow} {call : Call}
    (h : t.Adds w d seeded executions (attemptNo + 1) pr' (rows ++ [row]) new)
    (hnumber : row.attemptNumber = seeded + attemptNo) (hpaid : call.paid = some row.paid)
    (hattempt : call.attempt = w.attemptBase + executions + attemptNo - 1)
    (hphase : call.phase = d.name) (hpos : 1 ≤ attemptNo)
    (hrecord : pr'.costUsd = pr.costUsd ∧ pr'.tokens = pr.tokens ∧ pr'.attempts = pr.attempts) :
    Attempted.Adds w d seeded executions attemptNo pr rows (row :: new)
      { t with calls := call :: t.calls } where
  rows_eq := by rw [h.rows_eq, List.append_assoc, List.singleton_append]
  paid := by rw [List.map_cons, List.filterMap_cons_some hpaid, h.paid]
  numbers := by
    rw [List.map_cons, h.numbers, hnumber, List.length_cons, List.range'_succ, add_assoc]
  ordinals := by
    have hnext : w.attemptBase + executions + (attemptNo + 1) - 1 =
        w.attemptBase + executions + attemptNo - 1 + 1 := by omega
    dsimp only
    rw [List.map_cons, h.ordinals, hattempt, List.length_cons, List.range'_succ, hnext]
  phase := by
    intro call' hcall'
    rcases List.mem_cons.mp hcall' with rfl | hcall'
    · exact hphase
    · exact h.phase call' hcall'
  record := ⟨h.record.1.trans hrecord.1, h.record.2.1.trans hrecord.2.1,
    h.record.2.2.trans hrecord.2.2⟩
  settled := by
    intro hraised
    obtain ⟨hlength, before, last, hnew, hlast⟩ := h.settled hraised
    exact ⟨congrArg (· + 1) hlength, row :: before, last, by rw [hnew]; rfl, hlast⟩

lemma Attempted.Adds.last {row : AttemptRow} {call : Call} {result : Option AgentResult}
    (hnumber : row.attemptNumber = seeded + attemptNo) (hpaid : call.paid = some row.paid)
    (hattempt : call.attempt = w.attemptBase + executions + attemptNo - 1)
    (hphase : call.phase = d.name)
    (hrecord : pr'.costUsd = pr.costUsd ∧ pr'.tokens = pr.tokens ∧ pr'.attempts = pr.attempts)
    (hresult : row.paid = result.elim 0 AgentResult.paid) :
    Attempted.Adds w d seeded executions attemptNo pr rows [row]
      ⟨pr', rows ++ [row], none, result, [call]⟩ where
  rows_eq := rfl
  paid := by rw [List.map_singleton, List.filterMap_cons_some hpaid, List.filterMap_nil]
  numbers := by rw [List.map_singleton, hnumber]; rfl
  ordinals := by
    dsimp only
    rw [List.map_singleton, hattempt]
    rfl
  phase := by
    intro call' hcall'
    rwa [List.mem_singleton.mp hcall']
  record := hrecord
  settled := fun _ => ⟨rfl, [], row, rfl, hresult⟩

lemma Attempted.Adds.raised {e : Raised} {calls : List Call}
    (hcalls : calls = [] ∨ ∃ call : Call, calls = [call] ∧ call.paid = none ∧
      call.attempt = w.attemptBase + executions + attemptNo - 1 ∧ call.phase = d.name)
    (hrecord : pr'.costUsd = pr.costUsd ∧ pr'.tokens = pr.tokens ∧ pr'.attempts = pr.attempts) :
    Attempted.Adds w d seeded executions attemptNo pr rows [] ⟨pr', rows, some e, none, calls⟩ where
  rows_eq := (List.append_nil _).symm
  paid := by
    rcases hcalls with rfl | ⟨call, rfl, hpaid, -, -⟩
    · rfl
    · rw [List.filterMap_cons_none hpaid]
      rfl
  numbers := rfl
  ordinals := by
    rcases hcalls with rfl | ⟨call, rfl, -, hattempt, -⟩
    · rfl
    · dsimp only
      rw [List.map_singleton, hattempt]
      rfl
  phase := by
    rcases hcalls with rfl | ⟨call, rfl, -, -, hphase⟩
    · exact fun call hcall => nomatch hcall
    · intro call' hcall'
      rwa [List.mem_singleton.mp hcall']
  record := hrecord
  settled := fun hraised => nomatch hraised

lemma attemptLoop_adds (w : Settings) (d : PhaseDef) (seeded executions : ℕ)
    (invocation : ℕ → Invocation) (left attemptNo : ℕ) (model : String) (pr : PhaseResult)
    (rows : List AttemptRow) (hpos : 1 ≤ attemptNo) :
    ∃ new, (attemptLoop w d seeded executions invocation left attemptNo model pr rows).Adds
      w d seeded executions attemptNo pr rows new := by
  induction left generalizing attemptNo model pr rows with
  | zero =>
    rw [attemptLoop]
    split
    · exact ⟨[], .raised (Or.inl rfl) ⟨rfl, rfl, rfl⟩⟩
    · dsimp only
      split
      · rename_i e hanswer
        exact ⟨[], .raised (Or.inr ⟨_, rfl, by rw [Call.paid]; rw [hanswer], rfl, rfl⟩)
          ⟨rfl, rfl, rfl⟩⟩
      all_goals
        rename_i answer hanswer
        exact ⟨_, .last rfl (by rw [Call.paid]; rw [hanswer]; rfl) rfl rfl ⟨rfl, rfl, rfl⟩ rfl⟩
  | succ left ih =>
    rw [attemptLoop]
    split
    · exact ⟨[], .raised (Or.inl rfl) ⟨rfl, rfl, rfl⟩⟩
    · dsimp only
      split
      · rename_i e hanswer
        exact ⟨[], .raised (Or.inr ⟨_, rfl, by rw [Call.paid]; rw [hanswer], rfl, rfl⟩)
          ⟨rfl, rfl, rfl⟩⟩
      -- a stalled agent and one that has answered are recorded alike
      all_goals
        rename_i answer hanswer
        split
        · rename_i hleft _
          cases hleft
          obtain ⟨new, hnew⟩ := ih (attemptNo + 1) _ _ _ (Nat.le_add_left ..)
          exact ⟨_, hnew.cons rfl (by rw [Call.paid]; rw [hanswer]; rfl) rfl rfl hpos
            ⟨rfl, rfl, rfl⟩⟩
        · exact ⟨_, .last rfl (by rw [Call.paid]; rw [hanswer]; rfl) rfl rfl ⟨rfl, rfl, rfl⟩ rfl⟩

lemma PhaseResult.Settles.of_booked {paid : List Paid} (h : pr.Settles paid)
    (hbooked : pr'.booked = pr.booked) : pr'.Settles paid := by
  simp only [PhaseResult.booked, Prod.mk.injEq] at hbooked
  obtain ⟨-, hcost, htokens, hattempts⟩ := hbooked
  exact ⟨htokens ▸ h.tokens, hcost ▸ h.cost, hcost ▸ h.exact, hattempts ▸ h.attempts⟩

/-- The books of a phase: a row for each call that did not raise, numbered after those of earlier
executions; calls whose attempt ordinals follow those of earlier executions; and a record that
settles all rows, and keeps them where there are several. Where the phase has raised nothing, each
call has its row. -/
structure PhaseResult.Books (w : Settings) (d : PhaseDef) (seed : List AttemptRow)
    (executions : ℕ) (calls : List Call) (raised : Option Raised) (new : List AttemptRow)
    (pr : PhaseResult) : Prop where
  paid : new.map AttemptRow.paid = calls.filterMap Call.paid
  numbers : new.map AttemptRow.attemptNumber = List.range' (seed.length + 1) new.length
  ordinals : calls.map Call.attempt = List.range' (w.attemptBase + executions) calls.length
  phase : ∀ call ∈ calls, call.phase = d.name
  settles : pr.Settles ((seed ++ new).map AttemptRow.paid)
  attempts : pr.attempts = if 1 < (seed ++ new).length then seed ++ new else []
  settled : raised = none → calls.length = new.length ∧ new ≠ [] ∧
    ((seed ++ new).length = 1 → (seed ++ new).map AttemptRow.paid = [(pr.costUsd, pr.tokens)])

lemma PhaseResult.Books.of_booked {executions : ℕ} {calls : List Call} {raised : Option Raised}
    {new : List AttemptRow} (h : pr.Books w d seed executions calls raised new)
    (hbooked : pr'.booked = pr.booked) : pr'.Books w d seed executions calls raised new := by
  have hsame := hbooked
  simp only [PhaseResult.booked, Prod.mk.injEq] at hsame
  obtain ⟨-, hcost, htokens, hattempts⟩ := hsame
  refine ⟨h.paid, h.numbers, h.ordinals, h.phase, h.settles.of_booked hbooked,
    hattempts.trans h.attempts, fun hraised => ?_⟩
  rw [hcost, htokens]
  exact h.settled hraised

lemma applyAttemptTotals_attempts (hattempts : pr.attempts = []) (includeLast : Bool) :
    (applyAttemptTotals pr rows includeLast).attempts = if 1 < rows.length then rows else [] := by
  rw [applyAttemptTotals]
  by_cases hmany : 1 < rows.length
  · rw [if_pos hmany, if_pos hmany]
  · rw [if_neg hmany, if_neg hmany]
    exact (foldl_addAttempt pr _).2.2.2.trans hattempts

lemma tryAdmitted_books (hcost : pr.costUsd = 0) (htokens : pr.tokens = 0)
    (hattempts : pr.attempts = []) (hprocessed : scene.agent.unprocessed = none)
    (h : (tryAdmitted w d seed executions scene.agent pr).handled = some pr') :
    ∃ new, pr'.Books w d seed executions (tryAdmitted w d seed executions scene.agent pr).calls
      (tryAdmitted w d seed executions scene.agent pr).raised new := by
  rw [tryAdmitted] at h ⊢
  cases hadmitted : scene.agent.admitted with
  | error e =>
    simp only [hadmitted, Trial.handled, Option.map_some, Option.some.injEq] at h
    subst h
    refine ⟨[], rfl, rfl, rfl, ?_, ?_, ?_, ?_⟩
    · rintro call ⟨⟩
    · rw [List.append_nil]
      refine settles_all ?_ ?_ ?_ seed
      · exact hcost
      · exact htokens
      · exact hattempts
    · rw [List.append_nil]
      refine applyAttemptTotals_attempts ?_ true
      exact hattempts
    · rintro ⟨⟩
  | ok model =>
    simp only [hadmitted] at h ⊢
    generalize w.escalation.elim 0 EscalationPlan.maxAttempts - 1 = left at h ⊢
    obtain ⟨new, hadds⟩ := attemptLoop_adds w d seed.length executions scene.agent.invocation left 1
      model pr seed le_rfl
    generalize attemptLoop w d seed.length executions scene.agent.invocation left 1 model pr seed =
      t at h hadds ⊢
    obtain ⟨hcost', htokens', hattempts'⟩ := hadds.record
    refine ⟨new, ?_⟩
    cases hraised : t.raised with
    | some e =>
      simp only [hraised, Trial.handled, Option.map_some, Option.some.injEq, hadds.rows_eq] at h ⊢
      subst h
      refine ⟨hadds.paid, hadds.numbers, hadds.ordinals, hadds.phase, settles_all ?_ ?_ ?_ _,
        applyAttemptTotals_attempts ?_ true, ?_⟩
      · exact hcost'.trans hcost
      · exact htokens'.trans htokens
      · exact hattempts'.trans hattempts
      · exact hattempts'.trans hattempts
      · rintro ⟨⟩
    | none =>
      obtain ⟨hlength, before, last, rfl, hlast⟩ := hadds.settled hraised
      have hsingle {pr : PhaseResult} (hpaid : last.paid = (pr.costUsd, pr.tokens)) :
          (seed ++ (before ++ [last])).length = 1 →
            (seed ++ (before ++ [last])).map AttemptRow.paid =
              [((applyAttemptTotals pr (seed ++ (before ++ [last])) false).costUsd,
                (applyAttemptTotals pr (seed ++ (before ++ [last])) false).tokens)] := by
        intro hone
        have hnil : seed = [] ∧ before = [] := by
          simp only [List.length_append, List.length_singleton] at hone
          exact ⟨List.length_eq_zero_iff.mp (by omega), List.length_eq_zero_iff.mp (by omega)⟩
        rw [hnil.1, hnil.2]
        simp [applyAttemptTotals, hpaid]
      have hsettles {pr : PhaseResult} (hpaid : last.paid = (pr.costUsd, pr.tokens))
          (hattempts : pr.attempts = []) :
          (applyAttemptTotals pr (seed ++ (before ++ [last])) false).Settles
            ((seed ++ (before ++ [last])).map AttemptRow.paid) := by
        rw [← List.append_assoc]
        exact settles_last hpaid hattempts
      cases hresult : t.result with
      | none =>
        rw [hresult] at hlast
        have hpaid : last.paid = (t.record.costUsd, t.record.tokens) := by
          rw [hlast, hcost', htokens', hcost, htokens]
          rfl
        simp only [hraised, hresult, Trial.handled, Option.some.injEq, hadds.rows_eq] at h ⊢
        subst h
        exact ⟨hadds.paid, hadds.numbers, hadds.ordinals, hadds.phase,
          hsettles hpaid (hattempts'.trans hattempts),
          applyAttemptTotals_attempts (hattempts'.trans hattempts) false,
          fun _ => ⟨hlength, by simp, hsingle hpaid⟩⟩
      | some result =>
        rw [hresult] at hlast
        simp only [hraised, hresult, hprocessed, Trial.handled, Option.some.injEq,
          hadds.rows_eq] at h ⊢
        subst h
        refine ⟨hadds.paid, hadds.numbers, hadds.ordinals, hadds.phase, ?_, ?_,
          fun _ => ⟨hlength, by simp, ?_⟩⟩
        · split_ifs <;> exact hsettles hlast (hattempts'.trans hattempts)
        · refine applyAttemptTotals_attempts ?_ false
          split_ifs <;> exact hattempts'.trans hattempts
        · split_ifs <;> exact hsingle hlast

lemma executePhase_books {e : Executed} (hkind : d.kind ≠ "test")
    (hbound : ¬ d.RaisesUnbound scene) (hprocessed : scene.agent.unprocessed = none)
    (he : executePhase w d seed executions scene l = some e) :
    ∃ new, e.record.Books w d seed executions e.calls (tryPhase w d seed executions scene
      { phase := d.name, kind := d.kind } l).raised new := by
  rcases tryPhase_of_not_raisesUnbound w seed executions { phase := d.name, kind := d.kind } hbound
    with ⟨htest, -⟩ | ⟨-, htry⟩
  · exact absurd htest hkind
  rw [executePhase, htry] at he
  rw [htry]
  obtain ⟨pr, hpr, he⟩ := Option.bind_eq_some_iff.mp he
  obtain ⟨pr', hafter, rfl⟩ := Option.map_eq_some_iff.mp he
  obtain ⟨new, hnew⟩ := tryAdmitted_books rfl rfl rfl hprocessed hpr
  exact ⟨new, hnew.of_booked (afterTry_booked hafter)⟩

lemma executePhase_test {e : Executed} (hkind : d.kind = "test") (hbound : ¬ d.RaisesUnbound scene)
    (he : executePhase w d seed executions scene l = some e) :
    e.calls = [] ∧ e.record.costUsd = 0 ∧ e.record.tokens = 0 ∧ e.record.attempts = [] := by
  have htry : ∃ pr : PhaseResult, (pr.costUsd = 0 ∧ pr.tokens = 0 ∧ pr.attempts = []) ∧
      tryPhase w d seed executions scene { phase := d.name, kind := d.kind } l =
        ⟨pr, l, none, []⟩ := by
    rw [PhaseDef.RaisesUnbound, if_pos hkind, not_or] at hbound
    simp only [tryPhase, if_pos hkind, tryTest]
    cases htargets : resolveTestTargets d scene.planTargets with
    | error e => exact absurd ⟨e, htargets⟩ hbound.1
    | ok found =>
      obtain ⟨targets, skipped⟩ := found
      cases skipped with
      | true  => exact ⟨_, ⟨rfl, rfl, rfl⟩, rfl⟩
      | false =>
        cases hsuite : scene.suite with
        | error e  => exact absurd ⟨⟨targets, htargets⟩, e, hsuite⟩ hbound.2
        | ok suite =>
          refine ⟨_, ?_, rfl⟩
          have hbooked := PhaseResult.runTestGate_booked w.repr
            { phase := d.name, kind := d.kind } suite targets
            ((d.tests.getD []) ≠ [] ∨ d.testsFromPlan ≠ "")
          simp only [PhaseResult.booked, Prod.mk.injEq] at hbooked
          exact hbooked.2
  obtain ⟨pr, hpr, htry⟩ := htry
  rw [executePhase, htry] at he
  obtain ⟨pr', hpr', he⟩ := Option.bind_eq_some_iff.mp he
  obtain ⟨pr'', hafter, rfl⟩ := Option.map_eq_some_iff.mp he
  cases hpr'
  have hbooked := afterTry_booked hafter
  simp only [PhaseResult.booked, Prod.mk.injEq] at hbooked
  obtain ⟨-, hcost, htokens, hattempts⟩ := hbooked
  exact ⟨rfl, hcost.trans hpr.1, htokens.trans hpr.2.1, hattempts.trans hpr.2.2⟩

end Turn

end AgenticDynamics.Execution
