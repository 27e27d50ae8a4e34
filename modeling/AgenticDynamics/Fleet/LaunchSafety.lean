import AgenticDynamics.Fleet.Launch

/-!
# No false success

When a docker executor may report `ok`: the container exited with code 0 and the last result
envelope of its output does not refuse. The executors keep to this exactly when the launched cell
is neither killed by the timeout nor prints something after a refusing envelope.
-/

namespace AgenticDynamics.Fleet

open Python

/-! ### What an output says -/

section Output

variable (rt : Runtime)

/-- The lines are the text of a result envelope: an indented object with an `ok` key. -/
def IsEnvelope (block : List String) (envelope : Dict Json) : Prop :=
  ∃ line rest, block = line :: rest ∧ strip line = "\x7b" ∧
    rt.loads ("\n".intercalate block) = .ok (.obj envelope) ∧
    (Dict.get? "ok" envelope).isSome = true

/-- A result envelope among the lines of an output. -/
structure Printed (lines : List String) where
  before : List String
  block : List String
  after : List String
  envelope : Dict Json
  eq : lines = before ++ block ++ after
  isEnvelope : IsEnvelope rt block envelope

/-- No envelope ends later, and none that ends with it begins later. -/
def Printed.IsLast {rt : Runtime} {lines : List String} (p : Printed rt lines) : Prop :=
  ∀ q : Printed rt lines, p.after.length ≤ q.after.length ∧
    (q.after.length = p.after.length → q.before.length ≤ p.before.length)

/-- Neither `ok: false` nor `awaiting: true`. -/
def SaysSuccess (envelope : Dict Json) : Prop :=
  Dict.get? "ok" envelope ≠ some (.bool false) ∧
    Dict.get? "awaiting" envelope ≠ some (.bool true)

/-- An opening brace from which the decoder fails, but not with a `JSONDecodeError`. -/
def Unreadable (block : List String) : Prop :=
  ∃ line rest, block = line :: rest ∧ strip line = "\x7b" ∧
    ∃ typeName detail, rt.loads ("\n".intercalate block) = .error (typeName, detail) ∧
      typeName ≠ "JSONDecodeError"

/-- The last envelope refuses, but more output follows it, and the decoder gets through all of
it. -/
def Obscured (lines : List String) : Prop :=
  (∃ p : Printed rt lines, p.IsLast ∧ p.after ≠ [] ∧ ¬ SaysSuccess p.envelope) ∧
    ∀ rest, rest <:+ lines → ¬ Unreadable rt rest

/-- `ok` is reported only of a container that exited with code 0 and whose last result envelope,
when there is one, does not refuse. -/
def NoFalseSuccess (run : DockerRun) (result : Except StepError StepResult) : Prop :=
  ∀ r, result = .ok r → r.ok = true ∨ r.state = .ok →
    ∃ stdout stderr, run = .exited 0 stdout stderr ∧
      ∀ p : Printed rt (splitlines stdout), p.IsLast → SaysSuccess p.envelope

/-- A run that the executors take for a success although it is none. -/
def Deceptive : DockerRun → Prop
  | .timedOut             => True
  | .exited code stdout _ => code = 0 ∧ Obscured rt (splitlines stdout)
  | _                     => False

/-- Every validation passes and the broker is reached: the cell is launched. -/
def Launched (spawn : Spawn) : Prop :=
  spawn.errors = [] ∧ spawn.typedErrors = [] ∧ spawn.seam = none ∧
    spawn.request.errors = [] ∧ spawn.request.scopeErrors = []

end Output

/-! ### The scan -/

section Scan

variable {rt : Runtime} {lines rest : List String} {line : String} {envelope : Dict Json}

lemma not_isEnvelope_nil : ¬ IsEnvelope rt [] envelope := by
  rintro ⟨_, _, h, _⟩
  cases h

lemma isEnvelope_cons : IsEnvelope rt (line :: rest) envelope ↔
    strip line = "\x7b" ∧ envelopeOf rt (line :: rest) = .ok (some envelope) := by
  unfold envelopeOf
  constructor
  · rintro ⟨_, _, h, hbrace, hloads, hok⟩
    cases h
    simp [hbrace, hloads, hok]
  · rintro ⟨hbrace, h⟩
    refine ⟨line, rest, rfl, hbrace, ?_⟩
    split at h
    · next fields hloads =>
      by_cases hok : (Dict.get? "ok" fields).isSome = true
      · simp only [hok, if_true, Except.ok.injEq, Option.some.injEq] at h
        rw [← h]
        exact ⟨hloads, hok⟩
      · simp [hok] at h
    · simp at h
    · split at h <;> simp at h

lemma unreadable_cons : Unreadable rt (line :: rest) ↔
    strip line = "\x7b" ∧ ∃ typeName, envelopeOf rt (line :: rest) = .error typeName := by
  unfold envelopeOf
  constructor
  · rintro ⟨_, _, h, hbrace, typeName, detail, hloads, hname⟩
    cases h
    simp [hbrace, hloads, hname]
  · rintro ⟨hbrace, typeName, h⟩
    refine ⟨line, rest, rfl, hbrace, ?_⟩
    split at h
    · simp at h
    · simp at h
    · next name detail hloads =>
      by_cases hname : name = "JSONDecodeError"
      · simp [hname] at h
      · exact ⟨name, detail, hloads, hname⟩

lemma scanEnvelope_cons {found : Option (Dict Json)} :
    scanEnvelope rt (line :: rest) = .ok found ↔
      (found.isSome ∧ scanEnvelope rt rest = .ok found) ∨
        (scanEnvelope rt rest = .ok none ∧
          if strip line = "\x7b" then envelopeOf rt (line :: rest) = .ok found else found = none) := by
  rw [scanEnvelope, bind_eq_ok]
  constructor
  · rintro ⟨earlier, hrest, h⟩
    cases earlier with
    | some envelope =>
      cases h
      exact .inl ⟨rfl, hrest⟩
    | none =>
      refine .inr ⟨hrest, ?_⟩
      by_cases hbrace : strip line = "\x7b"
      · simpa [hbrace] using h
      · simp only [hbrace, if_false, Except.ok.injEq] at h ⊢
        exact h.symm
  · rintro (⟨hsome, hrest⟩ | ⟨hrest, h⟩)
    · obtain ⟨envelope, rfl⟩ := Option.isSome_iff_exists.mp hsome
      exact ⟨some envelope, hrest, rfl⟩
    · refine ⟨none, hrest, ?_⟩
      by_cases hbrace : strip line = "\x7b"
      · simpa [hbrace] using h
      · simp only [hbrace, if_false] at h ⊢
        rw [h]

lemma scanEnvelope_none : scanEnvelope rt lines = .ok none ↔
    ∀ block, block <:+ lines → (∀ other, ¬ IsEnvelope rt block other) ∧ ¬ Unreadable rt block := by
  induction lines with
  | nil =>
    have hunreadable : ¬ Unreadable rt [] := by
      rintro ⟨_, _, h, _⟩
      cases h
    simp [scanEnvelope, not_isEnvelope_nil, hunreadable]
  | cons line rest ih =>
    have hhere : (if strip line = "\x7b" then envelopeOf rt (line :: rest) = .ok none else True) ↔
        (∀ other, ¬ IsEnvelope rt (line :: rest) other) ∧ ¬ Unreadable rt (line :: rest) := by
      simp only [isEnvelope_cons, unreadable_cons]
      by_cases hbrace : strip line = "\x7b"
      · rcases envelopeOf rt (line :: rest) with typeName | found
        · simp [hbrace]
        · cases found <;> simp [hbrace]
      · simp [hbrace]
    have hstep : scanEnvelope rt (line :: rest) = .ok none ↔ scanEnvelope rt rest = .ok none ∧
        if strip line = "\x7b" then envelopeOf rt (line :: rest) = .ok none else True := by
      rw [scanEnvelope_cons]
      simp
    rw [hstep, hhere, ih]
    simp only [List.suffix_cons_iff, forall_eq_or_imp]
    exact and_comm

lemma scanEnvelope_some (h : scanEnvelope rt lines = .ok (some envelope)) :
    ∃ before block, lines = before ++ block ∧ IsEnvelope rt block envelope ∧
      ∀ later other, later <:+ block → IsEnvelope rt later other → later = block := by
  induction lines with
  | nil => simp [scanEnvelope] at h
  | cons line rest ih =>
    obtain ⟨-, hrest⟩ | ⟨hrest, hhere⟩ := scanEnvelope_cons.mp h
    · obtain ⟨before, block, rfl, hblock⟩ := ih hrest
      exact ⟨line :: before, block, rfl, hblock⟩
    · by_cases hbrace : strip line = "\x7b"
      · simp only [hbrace, if_true] at hhere
        refine ⟨[], line :: rest, rfl, isEnvelope_cons.mpr ⟨hbrace, hhere⟩, ?_⟩
        intro later other hlater hother
        rcases List.suffix_cons_iff.mp hlater with rfl | hlater
        · rfl
        · exact absurd hother ((scanEnvelope_none.mp hrest later hlater).1 other)
      · simp [hbrace] at hhere

lemma isLast_envelope (h : scanEnvelope rt lines = .ok (some envelope)) (p : Printed rt lines)
    (hlast : p.IsLast) : p.envelope = envelope := by
  obtain ⟨before, block, heq, hblock, hlatest⟩ := scanEnvelope_some h
  let found : Printed rt lines :=
    { before, block, after := [], envelope, eq := by simpa using heq, isEnvelope := hblock }
  obtain ⟨hends, hbegins⟩ := hlast found
  have hafter : p.after = [] := List.length_eq_zero_iff.mp (Nat.le_zero.mp hends)
  have hsplit : p.before ++ p.block = before ++ block := by
    have hlines := p.eq
    rw [hafter, List.append_nil] at hlines
    exact hlines.symm.trans heq
  have hbefore : before.length ≤ p.before.length := hbegins (by rw [hafter])
  have hsuffix : p.block <:+ block := by
    apply List.suffix_of_suffix_length_le (List.suffix_append p.before p.block)
    · rw [hsplit]
      exact List.suffix_append before block
    · have hlength := congrArg List.length hsplit
      simp only [List.length_append] at hlength
      omega
  have hsame := hlatest p.block p.envelope hsuffix p.isEnvelope
  obtain ⟨_, _, -, -, hloads, -⟩ := hblock
  obtain ⟨_, _, -, -, hloads', -⟩ := p.isEnvelope
  rw [hsame, hloads] at hloads'
  cases hloads'
  rfl

lemma obscured_iff : Obscured rt lines ↔ scanEnvelope rt lines = .ok none ∧
    ∃ p : Printed rt lines, p.IsLast ∧ ¬ SaysSuccess p.envelope := by
  rw [scanEnvelope_none]
  constructor
  · rintro ⟨⟨p, hlast, hafter, hreports⟩, hread⟩
    refine ⟨fun block hblock => ⟨?_, hread block hblock⟩, p, hlast, hreports⟩
    -- an envelope at the end would end later than the last one
    intro other hother
    obtain ⟨before, heq⟩ := hblock
    let ending : Printed rt lines :=
      { before, block, after := [], envelope := other, eq := by simpa using heq.symm
        isEnvelope := hother }
    have hends := (hlast ending).1
    exact hafter (List.length_eq_zero_iff.mp (Nat.le_zero.mp hends))
  · rintro ⟨hscan, p, hlast, hreports⟩
    refine ⟨⟨p, hlast, ?_, hreports⟩, fun block hblock => (hscan block hblock).2⟩
    intro hafter
    have hlines := p.eq
    rw [hafter, List.append_nil] at hlines
    exact (hscan p.block ⟨p.before, hlines.symm⟩).1 p.envelope p.isEnvelope

end Scan

/-! ### The layers between docker and the executors -/

section Layers

variable {rt : Runtime} {request : StepRequest} {spawn : Spawn} {outcome : Outcome}
  {found : Option (Dict Json)} {state : StepState} {r : StepResult}

lemma parseEnvelope_eq (stdout : String) :
    parseEnvelope rt stdout = scanEnvelope rt (splitlines stdout) := by
  by_cases hempty : stdout = ""
  · rw [hempty]
    rfl
  · simp [parseEnvelope, hempty]

/-- The exit code and the output that docker leaves of a run; a run killed by the timeout has
neither. -/
def observed : DockerRun → Option (Option ℤ × String)
  | .exited code stdout _ => some (some code, stdout)
  | .timedOut             => some (none, "")
  | _                     => none

lemma serveRequest_ok {request : LaunchRequest} {run : DockerRun} :
    brokerOutcomeOrRaise (serveRequest rt request false run) = .ok outcome ↔
      request.errors = [] ∧ request.scopeErrors = [] ∧
        observed run = some (outcome.returncode, outcome.stdout) ∧
        outcome = serveRequest rt request false run := by
  by_cases herrors : request.errors = []
  · by_cases hscope : request.scopeErrors = []
    · cases run with
      | exited code stdout stderr =>
        by_cases hcode : code = 0
        all_goals
          simp only [serveRequest, launch, brokerOutcomeOrRaise, observed, herrors, hscope, hcode,
            ne_eq, not_true_eq_false, if_false, Bool.false_eq_true, decide_true, decide_false,
            if_true, true_and, Except.ok.injEq, Option.some.injEq, Prod.mk.injEq]
          constructor
          · rintro rfl
            exact ⟨⟨rfl, rfl⟩, rfl⟩
          · exact fun h => h.2.symm
      | timedOut =>
        simp only [serveRequest, launch, brokerOutcomeOrRaise, observed, herrors, hscope,
          ne_eq, not_true_eq_false, if_false, Bool.false_eq_true, true_and, Except.ok.injEq,
          Option.some.injEq, Prod.mk.injEq]
        constructor
        · rintro rfl
          exact ⟨⟨rfl, rfl⟩, rfl⟩
        · exact fun h => h.2.symm
      | unavailable detail =>
        simp [serveRequest, launch, brokerOutcomeOrRaise, observed, herrors, hscope]
      | raised typeName detail =>
        simp [serveRequest, launch, brokerOutcomeOrRaise, observed, herrors, hscope]
    · simp [serveRequest, launch, brokerOutcomeOrRaise, herrors, hscope]
  · simp [serveRequest, launch, brokerOutcomeOrRaise, herrors]

lemma launched_of_spawnSibling (h : spawnSibling rt spawn = .ok outcome) :
    Launched spawn ∧ observed spawn.run = some (outcome.returncode, outcome.stdout) := by
  unfold spawnSibling at h
  split_ifs at h with herrors htyped
  cases hseam : spawn.seam with
  | some text => simp [hseam] at h
  | none =>
    simp only [hseam] at h
    obtain ⟨hrequest, hscope, hobserved, -⟩ := serveRequest_ok.mp h
    push Not at herrors htyped
    exact ⟨⟨herrors, htyped, hseam, hrequest, hscope⟩, hobserved⟩

lemma spawnSibling_of_launched (h : Launched spawn) {returncode : Option ℤ} {stdout : String}
    (hobserved : observed spawn.run = some (returncode, stdout)) :
    ∃ outcome, spawnSibling rt spawn = .ok outcome ∧ outcome.returncode = returncode ∧
      outcome.stdout = stdout := by
  obtain ⟨herrors, htyped, hseam, hrequest, hscope⟩ := h
  have hspawn : spawnSibling rt spawn =
      brokerOutcomeOrRaise (serveRequest rt spawn.request false spawn.run) := by
    simp [spawnSibling, herrors, htyped, hseam]
  have hresult : (serveRequest rt spawn.request false spawn.run).returncode = returncode ∧
      (serveRequest rt spawn.request false spawn.run).stdout = stdout := by
    cases hrun : spawn.run <;> simp_all [observed, serveRequest, launch]
  refine ⟨_, hspawn.trans (serveRequest_ok.mpr ⟨hrequest, hscope, ?_, rfl⟩), hresult⟩
  rw [hobserved, hresult.1, hresult.2]

lemma classify_ok : classify rt outcome = .ok (.ok, found) ↔
    parseEnvelope rt outcome.stdout = .ok found ∧
      (outcome.returncode = none ∨ outcome.returncode = some 0) ∧
      ∀ envelope, found = some envelope → SaysSuccess envelope := by
  rw [classify, bind_eq_ok]
  constructor
  · rintro ⟨parsed, hparsed, h⟩
    split_ifs at h with hawaiting hfailed
    · simp at h
    · simp at h
    · rw [not_and_or, not_not, not_not] at hfailed
      cases parsed with
      | none =>
        simp only [Except.ok.injEq, Prod.mk.injEq, true_and] at h
        rw [← h]
        exact ⟨hparsed, hfailed, by simp⟩
      | some envelope =>
        simp only at h
        split at h
        · simp at h
        · simp at h
        · next hnotAwaiting hnotFailed =>
          simp only [Except.ok.injEq, Prod.mk.injEq, true_and] at h
          subst h
          refine ⟨hparsed, hfailed, ?_⟩
          rintro _ ⟨⟩
          exact ⟨hnotFailed, hnotAwaiting⟩
  · rintro ⟨hparsed, hcode, hreports⟩
    refine ⟨found, hparsed, ?_⟩
    have hnotAwaiting : outcome.returncode ≠ some 10 := by
      rcases hcode with hcode | hcode <;> simp [hcode]
    have hnotFailed : ¬ (outcome.returncode ≠ none ∧ outcome.returncode ≠ some 0) := by
      rcases hcode with hcode | hcode <;> simp [hcode]
    rw [if_neg hnotAwaiting, if_neg hnotFailed]
    cases found with
    | none => rfl
    | some envelope =>
      -- neither refusing branch of the match applies
      obtain ⟨hok, hawaiting⟩ := hreports envelope rfl
      simp only

lemma phaseFromEnvelope_nil : phaseFromEnvelope [] = .ok none := rfl

/-- How an executor answers for a spawn: a state `ok` comes from the classifier, and without an
envelope the classifier's `ok` is the answer. -/
structure Answers (rt : Runtime) (spawn : Spawn) (result : Except StepError StepResult) :
    Prop where
  sound : ∀ r, result = .ok r → r.ok = true ∨ r.state = .ok →
    ∃ outcome found, spawnSibling rt spawn = .ok outcome ∧ classify rt outcome = .ok (.ok, found)
  complete : ∀ outcome, spawnSibling rt spawn = .ok outcome →
    classify rt outcome = .ok (.ok, none) → ∃ r, result = .ok r ∧ r.state = .ok

lemma executeAgent_answers : Answers rt spawn (executeAgent rt request spawn) where
  sound r hr hok := by
    simp only [executeAgent, bind_eq_ok, mapError_eq_ok] at hr
    obtain ⟨outcome, hspawn, ⟨state, found⟩, hclassify, phase, -, hr⟩ := hr
    refine ⟨outcome, found, hspawn, ?_⟩
    have hstate : (r.ok = true ↔ state = .ok) ∧ r.state = state := by
      cases phase with
      | none =>
        cases hr
        simp
      | some phase =>
        simp only [bind_eq_ok, mapError_eq_ok] at hr
        obtain ⟨fields, -, hr⟩ := hr
        cases hr
        simp
    rw [hstate.1, hstate.2, or_self] at hok
    rw [hclassify, hok]
  complete outcome hspawn hclassify := by
    rw [executeAgent, hspawn]
    simp only [Except.mapError, Bind.bind, Except.bind, hclassify, Option.getD_none,
      phaseFromEnvelope_nil]
    exact ⟨_, rfl, rfl⟩

lemma executeVerifier_answers (hkind : request.phaseKind = "test") :
    Answers rt spawn (executeVerifier rt request spawn) where
  sound r hr hok := by
    rw [executeVerifier, if_neg (not_not.mpr hkind)] at hr
    cases hspawn : spawnSibling rt spawn with
    | error errors =>
      simp only [hspawn, Except.ok.injEq] at hr
      rw [← hr] at hok
      simp at hok
    | ok outcome =>
      simp only [hspawn, bind_eq_ok, mapError_eq_ok] at hr
      obtain ⟨⟨state, found⟩, hclassify, phase, -, hr⟩ := hr
      refine ⟨outcome, found, rfl, ?_⟩
      have hstate : (r.ok = true ↔ state = .ok) ∧ r.state = state := by
        cases phase with
        | none =>
          cases hr
          simp
        | some phase =>
          simp only [bind_eq_ok, mapError_eq_ok] at hr
          obtain ⟨fields, -, hr⟩ := hr
          cases hr
          simp
      rw [hstate.1, hstate.2, or_self] at hok
      rw [hclassify, hok]
  complete outcome hspawn hclassify := by
    rw [executeVerifier, if_neg (not_not.mpr hkind), hspawn]
    simp only [Except.mapError, Bind.bind, Except.bind, hclassify, Option.getD_none,
      phaseFromEnvelope_nil]
    exact ⟨_, rfl, rfl⟩

lemma executeVerifier_refused (rt : Runtime) (spawn : Spawn) (hkind : request.phaseKind ≠ "test") :
    ∃ r, executeVerifier rt request spawn = .ok r ∧ r.ok = false ∧ r.state = .refused := by
  rw [executeVerifier, if_pos hkind]
  exact ⟨_, rfl, rfl, rfl⟩

/-- An executor that answers for a launched cell reports no false success, unless the run is one
that passes for a success. -/
lemma Answers.noFalseSuccess {result : Except StepError StepResult}
    (h : Answers rt spawn result) :
    NoFalseSuccess rt spawn.run result ↔ ¬ (Launched spawn ∧ Deceptive rt spawn.run) := by
  constructor
  · rintro hsafe ⟨hlaunched, hdeceptive⟩
    -- the executor sees no envelope, and an exit code that is 0 or missing
    have hreported : ∃ r, result = .ok r ∧ r.state = .ok := by
      cases hrun : spawn.run with
      | timedOut =>
        obtain ⟨outcome, hspawn, hcode, hstdout⟩ :=
          spawnSibling_of_launched hlaunched (by rw [hrun]; rfl)
        refine h.complete outcome hspawn (classify_ok.mpr ⟨?_, .inl hcode, by simp⟩)
        rw [hstdout, parseEnvelope_eq]
        rfl
      | exited code stdout stderr =>
        obtain ⟨outcome, hspawn, hcode, hstdout⟩ :=
          spawnSibling_of_launched hlaunched (by rw [hrun]; rfl)
        rw [hrun] at hdeceptive
        obtain ⟨rfl, hobscured⟩ := hdeceptive
        refine h.complete outcome hspawn (classify_ok.mpr ⟨?_, .inr hcode, by simp⟩)
        rw [hstdout, parseEnvelope_eq]
        exact (obscured_iff.mp hobscured).1
      | unavailable detail => simp [hrun, Deceptive] at hdeceptive
      | raised typeName detail => simp [hrun, Deceptive] at hdeceptive
    obtain ⟨r, hr, hstate⟩ := hreported
    obtain ⟨stdout, stderr, hrun, hreports⟩ := hsafe r hr (.inr hstate)
    rw [hrun] at hdeceptive
    obtain ⟨p, hlast, hrefuses⟩ := (obscured_iff.mp hdeceptive.2).2
    exact hrefuses (hreports p hlast)
  · intro hfair r hr hok
    obtain ⟨outcome, found, hspawn, hclassify⟩ := h.sound r hr hok
    obtain ⟨hlaunched, hobserved⟩ := launched_of_spawnSibling hspawn
    obtain ⟨hparse, hcode, hreports⟩ := classify_ok.mp hclassify
    rw [parseEnvelope_eq] at hparse
    cases hrun : spawn.run with
    | timedOut => exact absurd ⟨hlaunched, by rw [hrun]; trivial⟩ hfair
    | exited code stdout stderr =>
      simp only [hrun, observed, Option.some.injEq, Prod.mk.injEq] at hobserved
      obtain ⟨hcode', hstdout⟩ := hobserved
      have hzero : code = 0 := by
        rw [← hcode'] at hcode
        simpa using hcode
      refine ⟨stdout, stderr, by rw [hzero], ?_⟩
      intro p hlast
      rw [← hstdout] at hparse
      cases found with
      | some envelope =>
        rw [isLast_envelope hparse p hlast]
        exact hreports envelope rfl
      | none =>
        by_contra hrefuses
        refine hfair ⟨hlaunched, ?_⟩
        rw [hrun]
        exact ⟨hzero, obscured_iff.mpr ⟨hparse, p, hlast, hrefuses⟩⟩
    | unavailable detail => simp [hrun, observed] at hobserved
    | raised typeName detail => simp [hrun, observed] at hobserved

end Layers

/-! ### The executors -/

/-- The agent executor reports no false success exactly when the launched cell is not killed by the
timeout and prints nothing after a refusing envelope; the verifier executor likewise, on the phases
it executes. -/
theorem execute_noFalseSuccess (rt : Runtime) (request : StepRequest) (spawn : Spawn) :
    (NoFalseSuccess rt spawn.run (executeAgent rt request spawn) ↔
      ¬ (Launched spawn ∧ Deceptive rt spawn.run)) ∧
    (NoFalseSuccess rt spawn.run (executeVerifier rt request spawn) ↔
      ¬ (request.phaseKind = "test" ∧ Launched spawn ∧ Deceptive rt spawn.run)) := by
  refine ⟨executeAgent_answers.noFalseSuccess, ?_⟩
  by_cases hkind : request.phaseKind = "test"
  · simpa [hkind] using (executeVerifier_answers hkind).noFalseSuccess
  · obtain ⟨refusal, hrefusal, hok, hstate⟩ := executeVerifier_refused rt spawn hkind
    constructor
    · exact fun _ h => hkind h.1
    · intro _ r hr hreported
      rw [hrefusal] at hr
      cases hr
      simp [hok, hstate] at hreported

/-- The test phase of a cell that docker kills after half an hour. -/
def killedStep : StepRequest :=
  { phaseKind := "test", preparedRelativePath := ".fleet/prepared_steps/verify.a1.json"
    promptSha256 := "e3b0c442" }

def killedSpawn : Spawn :=
  { errors := []
    typedErrors := []
    seam := none
    request := { errors := [], scopeErrors := [], timeoutSeconds := .int 1800 }
    run := .timedOut }

/-- The interpreter it runs under; the output it reads is empty. -/
def killedRuntime : Runtime :=
  { loads := fun _ => .error ("JSONDecodeError", "Expecting value: line 1 column 1 (char 0)")
    repr := fun _ => "1800"
    upper := id
    lower := id }

/-- Both executors report the killed cell as a success, of exit code -1. -/
theorem execute_killed_ok :
    (∃ r, executeAgent killedRuntime killedStep killedSpawn = .ok r ∧
      r.ok = true ∧ r.state = .ok ∧ r.exitCode = -1) ∧
    (∃ r, executeVerifier killedRuntime killedStep killedSpawn = .ok r ∧
      r.ok = true ∧ r.state = .ok ∧ r.exitCode = -1) ∧
    ¬ NoFalseSuccess killedRuntime .timedOut
      (executeAgent killedRuntime killedStep killedSpawn) ∧
    ¬ NoFalseSuccess killedRuntime .timedOut
      (executeVerifier killedRuntime killedStep killedSpawn) := by
  have hagent : ∃ r, executeAgent killedRuntime killedStep killedSpawn = .ok r ∧
      r.ok = true ∧ r.state = .ok ∧ r.exitCode = -1 := ⟨_, rfl, rfl, rfl, rfl⟩
  have hverifier : ∃ r, executeVerifier killedRuntime killedStep killedSpawn = .ok r ∧
      r.ok = true ∧ r.state = .ok ∧ r.exitCode = -1 := ⟨_, rfl, rfl, rfl, rfl⟩
  refine ⟨hagent, hverifier, ?_, ?_⟩
  · obtain ⟨r, hr, hok, -, -⟩ := hagent
    intro hsafe
    obtain ⟨_, _, hrun, -⟩ := hsafe r hr (.inl hok)
    cases hrun
  · obtain ⟨r, hr, hok, -, -⟩ := hverifier
    intro hsafe
    obtain ⟨_, _, hrun, -⟩ := hsafe r hr (.inl hok)
    cases hrun

end AgenticDynamics.Fleet
