import AgenticDynamics.Fleet.SubmitArgs

/-!
# Submitted and parsed again

An accepted submit is parsed as it was meant exactly when none of its texts looks like an option,
its parent run has a true id, its concurrency is an integer and an integer budget is a float.
-/

namespace AgenticDynamics.Fleet.Submit

open Python Argparse

section RoundTrip

variable (rt : Runtime)

/-! ### What is wanted -/

def wantedText (fallback : ArgValue) : Option Json → ArgValue
  | none       => fallback
  | some value => .text (value.text rt)

def wantedFloat : Option Json → ArgValue
  | some (.int n)   => .float (.finite n)
  | some (.float x) => .float x
  | _               => .none

def wantedInt (fallback : ArgValue) : Option Json → ArgValue
  | some (.int n)   => .int n
  | some (.float x) => .float x
  | _               => fallback

/-- The arguments are those of the command, with the default where it has no value. -/
structure Yields (args : String → Option ArgValue) (command : Dict Json) : Prop where
  spec : args "--spec" = some (.text (textAt rt command "spec"))
  goal : args "--goal" = some (.text (textAt rt command "goal"))
  model : args "--model" = some (.text (textAt rt command "model"))
  workdir : args "--workdir" = some (.text (textAt rt command "workdir"))
  orchestrator : args "--orchestrator" = some (.bool true)
  resume : args "--resume" = some (.bool (truthyAt command "resume"))
  parent : args "--parent-run-id" =
    some (wantedText rt (.text "") (valueAt command "parent_run_id"))
  budget : args "--campaign-budget-usd" =
    some (wantedFloat (valueAt (mappingAt command "admission") "campaign_budget_usd"))
  concurrency : args "--campaign-concurrency" =
    some (wantedInt .none (valueAt (mappingAt command "admission") "campaign_concurrency"))
  backend : args "--backend" =
    some (wantedText rt .none (valueAt (mappingAt command "execution") "backend"))
  effort : args "--thinking-effort" =
    some (wantedText rt (.text "high") (valueAt (mappingAt command "execution") "thinking_effort"))
  thinkingBudget : args "--thinking-budget-tokens" =
    some (wantedInt (.int 0) (valueAt (mappingAt command "execution") "thinking_budget_tokens"))
  outputLimit : args "--output-token-limit" =
    some (wantedInt (.int 0) (valueAt (mappingAt command "execution") "output_token_limit"))
  timeout : args "--timeout" =
    some (wantedInt (.int 1800) (valueAt (mappingAt command "execution") "timeout_seconds"))
  noCommit : args "--no-commit" =
    some (.bool (truthyAt (mappingAt command "execution") "no_commit"))
  fork : args "--fork-checkpoint" =
    some (wantedText rt .none (valueAt (mappingAt command "execution") "fork_checkpoint"))
  image : args "--cell-image" = some (wantedText rt .none (valueAt command "image"))

/-- The tail parses, as the command means it. -/
def SurvivesHop (command : Dict Json) : Prop :=
  ∃ args, parse (workflowParser rt) (submitArgvTail rt command) = some args ∧
    Yields rt args command

/-! ### Field by field -/

def flagGiven (value : Bool) : Option (Option String) := if value then some none else none

def someGiven (value : Option Json) : Option (Option String) :=
  value.map fun value => some (value.text rt)

def truthyGiven (value : Option Json) : Option (Option String) :=
  someGiven rt (value.filter Json.truthy)

/-- The arguments with what is wanted of them. -/
def argFields (command : Dict Json) : List (Arg ArgValue) :=
  let admission := mappingAt command "admission"
  let execution := mappingAt command "execution"
  [⟨"--spec", some (some (textAt rt command "spec")), .text (textAt rt command "spec")⟩,
    ⟨"--goal", some (some (textAt rt command "goal")), .text (textAt rt command "goal")⟩,
    ⟨"--model", some (some (textAt rt command "model")), .text (textAt rt command "model")⟩,
    ⟨"--workdir", some (some (textAt rt command "workdir")), .text (textAt rt command "workdir")⟩,
    ⟨"--orchestrator", some none, .bool true⟩,
    ⟨"--resume", flagGiven (truthyAt command "resume"), .bool (truthyAt command "resume")⟩,
    ⟨"--parent-run-id",
      if textOrBlank rt command "parent_run_id" = "" then none
      else some (some (textAt rt command "parent_run_id")),
      wantedText rt (.text "") (valueAt command "parent_run_id")⟩,
    ⟨"--campaign-budget-usd", someGiven rt (valueAt admission "campaign_budget_usd"),
      wantedFloat (valueAt admission "campaign_budget_usd")⟩,
    ⟨"--campaign-concurrency", someGiven rt (valueAt admission "campaign_concurrency"),
      wantedInt .none (valueAt admission "campaign_concurrency")⟩,
    ⟨"--backend", truthyGiven rt (Dict.get? "backend" execution),
      wantedText rt .none (valueAt execution "backend")⟩,
    ⟨"--thinking-effort", truthyGiven rt (Dict.get? "thinking_effort" execution),
      wantedText rt (.text "high") (valueAt execution "thinking_effort")⟩,
    ⟨"--thinking-budget-tokens", someGiven rt (valueAt execution "thinking_budget_tokens"),
      wantedInt (.int 0) (valueAt execution "thinking_budget_tokens")⟩,
    ⟨"--output-token-limit", someGiven rt (valueAt execution "output_token_limit"),
      wantedInt (.int 0) (valueAt execution "output_token_limit")⟩,
    ⟨"--timeout", someGiven rt (valueAt execution "timeout_seconds"),
      wantedInt (.int 1800) (valueAt execution "timeout_seconds")⟩,
    ⟨"--no-commit", flagGiven (truthyAt execution "no_commit"),
      .bool (truthyAt execution "no_commit")⟩,
    ⟨"--fork-checkpoint", truthyGiven rt (Dict.get? "fork_checkpoint" execution),
      wantedText rt .none (valueAt execution "fork_checkpoint")⟩,
    ⟨"--cell-image", truthyGiven rt (Dict.get? "image" command),
      wantedText rt .none (valueAt command "image")⟩]

lemma commandLine_cons {V : Type} (f : Arg V) (args : List (Arg V)) :
    commandLine (f :: args) =
      (match f.given with
        | none      => []
        | some text => tokens (f.name, text)) ++ commandLine args := by
  obtain ⟨name, given, wanted⟩ := f
  cases given with
  | none =>
    rw [commandLine, List.filterMap_cons_none rfl]
    rfl
  | some text =>
    have hsegment : Arg.segment ⟨name, some text, wanted⟩ = some (name, text) := rfl
    rw [commandLine, List.filterMap_cons_some hsegment, List.flatMap_cons]
    rfl

lemma flagArg_eq (flag : String) (value : Bool) :
    flagArg flag value = match flagGiven value with
      | none      => []
      | some text => tokens (flag, text) := by
  cases value <;> rfl

lemma someArg_eq (option : String) (value : Option Json) :
    someArg rt option value = match someGiven rt value with
      | none      => []
      | some text => tokens (option, text) := by
  cases value <;> rfl

lemma truthyArg_eq (option : String) (value : Option Json) :
    truthyArg rt option value = match truthyGiven rt value with
      | none      => []
      | some text => tokens (option, text) :=
  someArg_eq rt option _

theorem submitArgvTail_eq (command : Dict Json) :
    submitArgvTail rt command = commandLine (argFields rt command) := by
  have hnil : commandLine ([] : List (Arg ArgValue)) = [] := rfl
  simp only [argFields, commandLine_cons, hnil, submitArgvTail, ← flagArg_eq, ← someArg_eq,
    ← truthyArg_eq]
  split
  · simp [tokens]
  · simp [tokens]

lemma yields_iff {args : String → Option ArgValue} {command : Dict Json} :
    Yields rt args command ↔ ∀ arg ∈ argFields rt command, args arg.name = some arg.wanted := by
  simp only [argFields, List.forall_mem_cons, List.not_mem_nil, false_imp_iff, implies_true,
    and_true]
  constructor
  · intro h
    exact ⟨h.spec, h.goal, h.model, h.workdir, h.orchestrator, h.resume, h.parent, h.budget,
      h.concurrency, h.backend, h.effort, h.thinkingBudget, h.outputLimit, h.timeout, h.noCommit,
      h.fork, h.image⟩
  · rintro ⟨spec, goal, model, workdir, orchestrator, resume, parent, budget, concurrency, backend,
      effort, thinkingBudget, outputLimit, timeout, noCommit, fork, image⟩
    constructor <;> assumption

lemma fits_store {name : String} {given : Option (Option String)}
    (h : ∃ convert, actionOf (workflowParser rt) name = some (.store convert))
    (hgiven : given ≠ some none) :
    ∀ text, given = some text → Fits (workflowParser rt) (name, text) := by
  obtain ⟨convert, haction⟩ := h
  rintro (_ | text) rfl
  · exact absurd rfl hgiven
  · simp only [Fits, haction]

lemma fits_flag {name : String} {given : Option (Option String)}
    (h : ∃ value, actionOf (workflowParser rt) name = some (.flag value))
    (hgiven : ∀ text, given ≠ some (some text)) :
    ∀ text, given = some text → Fits (workflowParser rt) (name, text) := by
  obtain ⟨value, haction⟩ := h
  rintro (_ | text) rfl
  · simp only [Fits, haction]
  · exact absurd rfl (hgiven text)

lemma flagGiven_ne (value : Bool) (text : String) : flagGiven value ≠ some (some text) := by
  cases value <;> simp [flagGiven]

lemma someGiven_ne (value : Option Json) : someGiven rt value ≠ some none := by
  cases value <;> simp [someGiven]

theorem survivesHop_iff (command : Dict Json) :
    SurvivesHop rt command ↔ ∀ arg ∈ argFields rt command, arg.Survives (workflowParser rt) := by
  have hnodup : ((argFields rt command).map Arg.name).Nodup := by
    have hnames : (argFields rt command).map Arg.name =
        ["--spec", "--goal", "--model", "--workdir", "--orchestrator", "--resume",
          "--parent-run-id", "--campaign-budget-usd", "--campaign-concurrency", "--backend",
          "--thinking-effort", "--thinking-budget-tokens", "--output-token-limit", "--timeout",
          "--no-commit", "--fork-checkpoint", "--cell-image"] := rfl
    rw [hnames]
    decide
  have hfits : ∀ arg ∈ argFields rt command, ∀ text, arg.given = some text →
      Fits (workflowParser rt) (arg.name, text) := by
    simp only [argFields, List.forall_mem_cons, List.not_mem_nil, false_imp_iff, implies_true,
      and_true]
    have htext (text : String) : some (some text) ≠ some none := by simp
    have hsome (value : Option Json) := someGiven_ne rt value
    refine ⟨fits_store rt ⟨_, rfl⟩ (htext _), fits_store rt ⟨_, rfl⟩ (htext _),
      fits_store rt ⟨_, rfl⟩ (htext _), fits_store rt ⟨_, rfl⟩ (htext _),
      fits_flag rt ⟨_, rfl⟩ (by simp), fits_flag rt ⟨_, rfl⟩ (flagGiven_ne _),
      fits_store rt ⟨_, rfl⟩ ?_, fits_store rt ⟨_, rfl⟩ (hsome _),
      fits_store rt ⟨_, rfl⟩ (hsome _), fits_store rt ⟨_, rfl⟩ (hsome _),
      fits_store rt ⟨_, rfl⟩ (hsome _), fits_store rt ⟨_, rfl⟩ (hsome _),
      fits_store rt ⟨_, rfl⟩ (hsome _), fits_store rt ⟨_, rfl⟩ (hsome _),
      fits_flag rt ⟨_, rfl⟩ (flagGiven_ne _), fits_store rt ⟨_, rfl⟩ (hsome _),
      fits_store rt ⟨_, rfl⟩ (hsome _)⟩
    split <;> simp
  have hrequired : ∀ option ∈ (workflowParser rt).options, option.2.required = true →
      ∃ arg ∈ argFields rt command, arg.name = option.1 ∧ arg.given.isSome = true := by
    have hneeded : (workflowParser rt).options.filter (·.2.required) =
        (workflowParser rt).options.take 4 := rfl
    intro option hoption hrequired
    have hmem : option ∈ (workflowParser rt).options.filter (·.2.required) :=
      List.mem_filter.mpr ⟨hoption, hrequired⟩
    rw [hneeded] at hmem
    simp only [workflowParser, List.take_succ_cons, List.take_zero, List.mem_cons,
      List.not_mem_nil, or_false] at hmem
    rcases hmem with rfl | rfl | rfl | rfl <;> simp [argFields]
  rw [← parse_commandLine (workflowParser rt) hnodup hfits hrequired, ← submitArgvTail_eq]
  simp only [SurvivesHop, yields_iff]

end RoundTrip

end AgenticDynamics.Fleet.Submit
