import AgenticDynamics.Library.JsonReader
import AgenticDynamics.Fleet.SubmitRoundTrip

/-!
# Accepted submits that survive

What the validation leaves open of each field, and what of it the command line brings across.
-/

namespace AgenticDynamics.Fleet.Submit

open Python Argparse

section Survival

variable {rt : Runtime} {command : Dict Json}

/-! ### Accepted submits -/

lemma fieldErrors_eq_nil {value : Option Json} {ok : Json → Bool} {error : Json → String} :
    fieldErrors value ok error = [] ↔ ∀ v, value = some v → ok v = true := by
  cases value with
  | none => simp [fieldErrors]
  | some v =>
    simp only [fieldErrors, Option.some.injEq, forall_eq']
    split
    · simp [*]
    · simp [*]

lemma get?_of_valueAt {key : String} {value : Json} (h : valueAt command key = some value) :
    Dict.get? key command = some value := by
  rw [valueAt] at h
  split at h
  · cases h
  · exact h

lemma mappingAt_none {key : String} (h : valueAt command key = none) :
    mappingAt command key = [] := by
  rw [valueAt] at h
  split at h
  · rename_i hget
    simp [mappingAt, hget, Json.orElse, Json.truthy]
  · simp [mappingAt, h, Json.orElse]

lemma mappingAt_obj {key : String} {fields : Dict Json}
    (h : valueAt command key = some (.obj fields)) : mappingAt command key = fields := by
  cases fields with
  | nil => simp [mappingAt, get?_of_valueAt h, Json.orElse, Json.truthy]
  | cons field fields => simp [mappingAt, get?_of_valueAt h, Json.orElse, Json.truthy]

/-- What the validation says of the fields that become arguments. -/
structure Accepted (rt : Runtime) (command : Dict Json) : Prop where
  model : textOrBlank rt command "model" ∈ modelWhitelist
  image : ∀ value, valueAt command "image" = some value → isJobImage (value.text rt) = true
  parent : ∀ value, valueAt command "parent_run_id" = some value → strip (value.text rt) ≠ ""
  budget : ∀ value, valueAt (mappingAt command "admission") "campaign_budget_usd" = some value →
    numberInRange false value = true
  concurrency : ∀ value,
    valueAt (mappingAt command "admission") "campaign_concurrency" = some value →
      numberInRange true value = true
  backend : ∀ value, valueAt (mappingAt command "execution") "backend" = some value →
    value.text rt = "opencode" ∨ value.text rt = "claude_cli"
  effort : ∀ value, valueAt (mappingAt command "execution") "thinking_effort" = some value →
    isNonBlank value = true
  counts : ∀ field ∈ ["thinking_budget_tokens", "output_token_limit", "timeout_seconds"],
    ∀ value, valueAt (mappingAt command "execution") field = some value → isCount value = true
  fork : ∀ value, valueAt (mappingAt command "execution") "fork_checkpoint" = some value →
    isNonBlank value = true

lemma accepted_admission (h : admissionErrors rt command = []) :
    (∀ value, valueAt (mappingAt command "admission") "campaign_budget_usd" = some value →
      numberInRange false value = true) ∧
    ∀ value, valueAt (mappingAt command "admission") "campaign_concurrency" = some value →
      numberInRange true value = true := by
  rw [admissionErrors] at h
  split at h
  · rename_i hnone
    have hvalue (field : String) (value : Json) :
        valueAt (mappingAt command "admission") field ≠ some value := by
      rw [mappingAt_none hnone]
      exact fun h => by cases h
    exact ⟨fun _ h => (hvalue _ _ h).elim, fun _ h => (hvalue _ _ h).elim⟩
  · rename_i admission hobj
    simp only [admissionNumberErrors, List.append_eq_nil_iff, fieldErrors_eq_nil] at h
    rw [mappingAt_obj hobj]
    exact ⟨h.2.1, h.2.2.1⟩
  · cases h

lemma accepted_parent (h : parentErrors rt command = []) :
    ∀ value, valueAt command "parent_run_id" = some value → strip (value.text rt) ≠ "" := by
  intro value hvalue hblank
  simp [parentErrors, hvalue, hblank] at h

lemma accepted_of_validate {others : OtherChecks}
    (h : validateSubmitRequest rt others command = []) : Accepted rt command := by
  simp only [validateSubmitRequest, List.append_eq_nil_iff] at h
  obtain ⟨-, hmodel, -, -, -, himage, -, -, hparent, hadmission, hexecution, -⟩ := h
  have hmodel : textOrBlank rt command "model" ∈ modelWhitelist := by
    by_contra hmem
    rw [if_neg hmem] at hmodel
    cases hmodel
  obtain ⟨hbudget, hconcurrency⟩ := accepted_admission hadmission
  rw [fieldErrors_eq_nil] at himage
  rw [executionErrors] at hexecution
  split at hexecution
  · rename_i hnone
    have hvalue (field : String) (value : Json) :
        valueAt (mappingAt command "execution") field ≠ some value := by
      rw [mappingAt_none hnone]
      exact fun h => by cases h
    exact ⟨hmodel, himage, accepted_parent hparent, hbudget, hconcurrency,
      fun _ h => (hvalue _ _ h).elim, fun _ h => (hvalue _ _ h).elim,
      fun _ _ _ h => (hvalue _ _ h).elim, fun _ h => (hvalue _ _ h).elim⟩
  · rename_i execution hobj
    simp only [countErrors, List.append_eq_nil_iff, fieldErrors_eq_nil] at hexecution
    obtain ⟨hbackend, heffort, hbudgetTokens, hlimit, htimeout, -, hfork⟩ := hexecution
    rw [← mappingAt_obj hobj] at hbackend heffort hbudgetTokens hlimit htimeout hfork
    refine ⟨hmodel, himage, accepted_parent hparent, hbudget, hconcurrency, ?_, heffort, ?_, hfork⟩
    · intro value hvalue
      simpa using hbackend value hvalue
    · intro field hfield
      simp only [List.mem_cons, List.not_mem_nil, or_false] at hfield
      rcases hfield with rfl | rfl | rfl <;> assumption
  · cases hexecution

/-! ### The texts of numbers -/

/-- The integer is a float: of 53 binary digits at most before the zeros at its end. -/
def isDouble (n : ℤ) : Bool :=
  decide (n.natAbs.size ≤ 1024) && decide (2 ^ (n.natAbs.size - 53) ∣ n.natAbs)

/-- `repr`, `int` and `float` of numbers: a text gives its number back, the text of a float is none
of an integer, and that of an integer is read as the float nearest to it. -/
structure NumberTexts (rt : Runtime) : Prop where
  int_parse : ∀ n, rt.parseInt (rt.repr (.int n)) = some n
  float_parse : ∀ x, rt.parseFloat (rt.repr (.float x)) = some x
  float_not_int : ∀ x, rt.parseInt (rt.repr (.float x)) = none
  int_float : ∀ n, rt.parseFloat (rt.repr (.int n)) = some (.finite n) ↔ isDouble n = true
  int_plain : ∀ n, 0 ≤ n → (rt.repr (.int n)).toList.head? ≠ some '-'
  float_plain : ∀ x, PyFloat.lt x (.finite 0) = false →
    (rt.repr (.float x)).toList.head? ≠ some '-' ∨ rt.repr (.float x) = "-0.0"
  falsy : ∀ value, value.truthy = false →
    rt.repr value ∈ ["None", "False", "0", "0.0", "-0.0", "''", "[]", "\x7b\x7d"]

lemma optionLike_eq_false {text : String} (h : text.toList.head? ≠ some '-') :
    optionLike text = false := by
  simp [optionLike, h]

lemma optionLike_int (hrt : NumberTexts rt) {n : ℤ} (h : 0 ≤ n) :
    optionLike (rt.repr (.int n)) = false :=
  optionLike_eq_false (hrt.int_plain n h)

lemma optionLike_float (hrt : NumberTexts rt) {x : PyFloat} (h : PyFloat.lt x (.finite 0) = false) :
    optionLike (rt.repr (.float x)) = false := by
  rcases hrt.float_plain x h with hplain | hzero
  · exact optionLike_eq_false hplain
  · rw [hzero]
    decide

/-! ### One field -/

lemma truthyGiven_eq {fields : Dict Json} {key : String}
    (h : ∀ value, valueAt fields key = some value → value.truthy = true) :
    truthyGiven rt (Dict.get? key fields) = someGiven rt (valueAt fields key) := by
  cases hvalue : valueAt fields key with
  | some value => simp [truthyGiven, get?_of_valueAt hvalue, Option.filter, h value hvalue]
  | none =>
    rw [valueAt] at hvalue
    split at hvalue
    · rename_i hget
      rw [hget]
      rfl
    · rw [hvalue]
      rfl

section Stored

variable {name : String} {convert : String → Option ArgValue}
  (haction : actionOf (workflowParser rt) name = some (.store convert))

include haction

lemma survives_given {text : String} {wanted : ArgValue} :
    Arg.Survives (workflowParser rt) ⟨name, some (some text), wanted⟩ ↔
      optionLike text = false ∧ convert text = some wanted := by
  simp only [Arg.Survives, Argparse.read, haction]
  cases hoption : optionLike text with
  | false => simp [workflowParser, hoption]
  | true => simp [workflowParser, hoption]

end Stored

lemma survives_text {name text : String}
    (haction : actionOf (workflowParser rt) name = some (.store fun s => some (.text s))) :
    Arg.Survives (workflowParser rt) ⟨name, some (some text), .text text⟩ ↔
      optionLike text = false := by
  simp [survives_given haction]

lemma survives_texts {name : String} {fallback : ArgValue} {value : Option Json}
    (hoption : Dict.get? name (workflowParser rt).options = some (textOption fallback)) :
    Arg.Survives (workflowParser rt) ⟨name, someGiven rt value, wantedText rt fallback value⟩ ↔
      ∀ v, value = some v → optionLike (v.text rt) = false := by
  cases value with
  | none => simp [Arg.Survives, someGiven, wantedText, hoption, textOption]
  | some v =>
    have haction : actionOf (workflowParser rt) name = some (.store fun s => some (.text s)) := by
      simp [actionOf, hoption, textOption]
    simp only [someGiven, Option.map_some, wantedText, Option.some.injEq, forall_eq']
    exact survives_text haction

lemma survives_flag {name : String} {value : Bool}
    (hoption : Dict.get? name (workflowParser rt).options = some flagOption) :
    Arg.Survives (workflowParser rt) ⟨name, flagGiven value, .bool value⟩ := by
  cases value with
  | false => simp [Arg.Survives, flagGiven, hoption, flagOption]
  | true => simp [Arg.Survives, flagGiven, Argparse.read, actionOf, hoption, flagOption]

lemma survives_count (hrt : NumberTexts rt) {name : String} {n : ℤ} {value : Option Json}
    (hoption : Dict.get? name (workflowParser rt).options = some (intOption rt (.int n)))
    (h : ∀ v, value = some v → isCount v = true) :
    Arg.Survives (workflowParser rt) ⟨name, someGiven rt value, wantedInt (.int n) value⟩ := by
  cases value with
  | none => simp [Arg.Survives, someGiven, wantedInt, hoption, intOption]
  | some v =>
    have hcount := h v rfl
    have haction : actionOf (workflowParser rt) name =
        some (.store fun s => (rt.parseInt s).map .int) := by
      simp [actionOf, hoption, intOption]
    cases v with
    | int m =>
      have hm : 0 ≤ m := by simpa [isCount] using hcount
      exact (survives_given haction).mpr
        ⟨optionLike_int hrt hm, congrArg (Option.map ArgValue.int) (hrt.int_parse m)⟩
    | _ => cases hcount

lemma mem_texts_of_falsy (hrt : NumberTexts rt) {value : Json} (h : value.truthy = false) :
    value.text rt ∈ ["", "None", "False", "0", "0.0", "-0.0", "''", "[]", "\x7b\x7d"] := by
  cases value with
  | str s =>
    have hempty : s = "" := by simpa [Json.truthy] using h
    simp [Json.text, hempty]
  | _ => exact List.mem_cons_of_mem _ (hrt.falsy _ h)

lemma truthy_of_backend (hrt : NumberTexts rt) {value : Json}
    (h : value.text rt = "opencode" ∨ value.text rt = "claude_cli") : value.truthy = true := by
  by_contra hfalse
  have hmem := mem_texts_of_falsy hrt (Bool.not_eq_true _ ▸ hfalse)
  rcases h with h | h <;> simp [h] at hmem

lemma truthy_of_image (hrt : NumberTexts rt) {value : Json}
    (h : isJobImage (value.text rt) = true) : value.truthy = true := by
  by_contra hfalse
  have hnone : ∀ text ∈ ["", "None", "False", "0", "0.0", "-0.0", "''", "[]", "\x7b\x7d"],
      isJobImage text = false := by decide
  have hmem := mem_texts_of_falsy hrt (Bool.not_eq_true _ ▸ hfalse)
  rw [hnone _ hmem] at h
  cases h

lemma truthy_of_nonBlank {value : Json} (h : isNonBlank value = true) : value.truthy = true := by
  cases value with
  | str s =>
    have hstrip : strip s ≠ "" := by simpa [isNonBlank] using h
    have hne : s ≠ "" := by
      rintro rfl
      exact hstrip rfl
    simpa [Json.truthy] using hne
  | _ => cases h

lemma head_of_image {text : String} (h : isJobImage text = true) :
    text.toList.head? ≠ some '-' := by
  have hstart : startsWith text "fleet/job-" = true := by
    simp only [isJobImage, Bool.and_eq_true] at h
    exact h.1.1
  obtain ⟨rest, hrest⟩ := List.isPrefixOf_iff_prefix.mp hstart
  rw [← hrest]
  simp

lemma optionLike_of_model {text : String} (h : text ∈ modelWhitelist) :
    optionLike text = false := by
  have hall : ∀ text ∈ modelWhitelist, optionLike text = false := by decide
  exact hall text h

/-! ### Every field -/

/-- What the accepted command must be like for its arguments to come across. -/
structure Carried (rt : Runtime) (command : Dict Json) : Prop where
  texts : ∀ key ∈ ["spec", "goal", "workdir"], optionLike (textAt rt command key) = false
  parent : ∀ value, valueAt command "parent_run_id" = some value →
    value.truthy = true ∧ optionLike (value.text rt) = false
  budget : ∀ n, valueAt (mappingAt command "admission") "campaign_budget_usd" = some (.int n) →
    isDouble n = true
  concurrency : ∀ x,
    valueAt (mappingAt command "admission") "campaign_concurrency" ≠ some (.float x)
  settings : ∀ key ∈ ["thinking_effort", "fork_checkpoint"], ∀ value,
    valueAt (mappingAt command "execution") key = some value → optionLike (value.text rt) = false

lemma model_text (h : Accepted rt command) : optionLike (textAt rt command "model") = false := by
  have hmodel := h.model
  have hblank : "" ∉ modelWhitelist := by decide
  have htext : textAt rt command "model" = textOrBlank rt command "model" := by
    cases hget : Dict.get? "model" command with
    | none => simp [textAt, textOrBlank, hget, Json.orElse]
    | some value =>
      cases htruthy : value.truthy with
      | true => simp [textAt, textOrBlank, hget, Json.orElse, htruthy]
      | false =>
        refine absurd hmodel ?_
        simpa [textOrBlank, hget, Json.orElse, htruthy, Json.text] using hblank
  rw [htext]
  exact optionLike_of_model hmodel

lemma survives_parent (h : Accepted rt command) :
    Arg.Survives (workflowParser rt) ⟨"--parent-run-id",
      if textOrBlank rt command "parent_run_id" = "" then none
      else some (some (textAt rt command "parent_run_id")),
      wantedText rt (.text "") (valueAt command "parent_run_id")⟩ ↔
    ∀ value, valueAt command "parent_run_id" = some value →
      value.truthy = true ∧ optionLike (value.text rt) = false := by
  cases hvalue : valueAt command "parent_run_id" with
  | none =>
    have hblank : textOrBlank rt command "parent_run_id" = "" := by
      rw [valueAt] at hvalue
      split at hvalue
      · rename_i hget
        rw [textOrBlank, hget]
        rfl
      · rw [textOrBlank, hvalue]
        rfl
    rw [if_pos hblank]
    simp only [wantedText, reduceCtorEq, false_imp_iff, implies_true, iff_true]
    rfl
  | some value =>
    have hget := get?_of_valueAt hvalue
    have hstrip := h.parent value hvalue
    have hne : value.text rt ≠ "" := by
      intro htext
      rw [htext] at hstrip
      exact hstrip rfl
    have htext : textAt rt command "parent_run_id" = value.text rt := by
      rw [textAt, hget]
      rfl
    simp only [Option.some.injEq, forall_eq', wantedText, htext]
    cases htruthy : value.truthy with
    | true =>
      have hgiven : textOrBlank rt command "parent_run_id" ≠ "" := by
        simpa [textOrBlank, hget, Json.orElse, htruthy] using hne
      rw [if_neg hgiven]
      simpa using survives_text rfl
    | false =>
      have hblank : textOrBlank rt command "parent_run_id" = "" := by
        simp [textOrBlank, hget, Json.orElse, htruthy, Json.text]
      rw [if_pos hblank]
      simp only [Bool.false_eq_true, false_and, iff_false]
      intro hsurvives
      have hsame : ArgValue.text "" = .text (value.text rt) := Option.some.inj hsurvives
      exact hne (ArgValue.text.inj hsame).symm

lemma survives_budget (hrt : NumberTexts rt) {value : Option Json}
    (h : ∀ v, value = some v → numberInRange false v = true) :
    Arg.Survives (workflowParser rt)
      ⟨"--campaign-budget-usd", someGiven rt value, wantedFloat value⟩ ↔
    ∀ n, value = some (.int n) → isDouble n = true := by
  have haction : actionOf (workflowParser rt) "--campaign-budget-usd" =
      some (.store fun s => (rt.parseFloat s).map .float) := rfl
  cases value with
  | none =>
    simp only [reduceCtorEq, false_imp_iff, implies_true, iff_true]
    rfl
  | some v =>
    have hrange := h v rfl
    cases v with
    | int n =>
      have hn : 0 ≤ n := by simpa [numberInRange] using hrange
      have hsurvives := @survives_given rt _ _ haction (rt.repr (.int n)) (.float (.finite n))
      refine hsurvives.trans ?_
      simp [optionLike_int hrt hn, ← hrt.int_float]
    | float x =>
      have hx : PyFloat.lt x (.finite 0) = false := by simpa [numberInRange] using hrange
      have hsurvives := (@survives_given rt _ _ haction (rt.repr (.float x)) (.float x)).mpr
        ⟨optionLike_float hrt hx, congrArg (Option.map ArgValue.float) (hrt.float_parse x)⟩
      refine iff_of_true hsurvives ?_
      simp
    | _ => cases hrange

lemma survives_concurrency (hrt : NumberTexts rt) {value : Option Json}
    (h : ∀ v, value = some v → numberInRange true v = true) :
    Arg.Survives (workflowParser rt)
      ⟨"--campaign-concurrency", someGiven rt value, wantedInt .none value⟩ ↔
    ∀ x, value ≠ some (.float x) := by
  have haction : actionOf (workflowParser rt) "--campaign-concurrency" =
      some (.store fun s => (rt.parseInt s).map .int) := rfl
  cases value with
  | none =>
    simp only [ne_eq, reduceCtorEq, not_false_eq_true, implies_true, iff_true]
    rfl
  | some v =>
    have hrange := h v rfl
    cases v with
    | int n =>
      have hn : 0 ≤ n := by
        simp only [numberInRange, Bool.and_eq_true, decide_eq_true_eq] at hrange
        exact hrange.1
      have hsurvives := (@survives_given rt _ _ haction (rt.repr (.int n)) (.int n)).mpr
        ⟨optionLike_int hrt hn, congrArg (Option.map ArgValue.int) (hrt.int_parse n)⟩
      refine iff_of_true hsurvives ?_
      simp
    | float x =>
      have hrefused : ¬ Arg.Survives (workflowParser rt) ⟨"--campaign-concurrency",
          some (some (rt.repr (.float x))), .float x⟩ := by
        rw [survives_given haction, hrt.float_not_int x]
        simp
      refine iff_of_false hrefused ?_
      simp
    | _ => cases hrange

end Survival

/-! ### A run that is resumed -/

open Json

def plainRepr : Json → String
  | .null         => "None"
  | .bool b       => if b then "True" else "False"
  | .int n        => String.ofList (intText n)
  | .float x      => if x = .finite 0 then "0.0" else String.ofList (fractionText x)
  | .str s        => "'" ++ s ++ "'"
  | .arr []       => "[]"
  | .arr (_ :: _) => "[..]"
  | .obj []       => "\x7b\x7d"
  | .obj (_ :: _) => "\x7b..\x7d"

def plainFloat (text : String) : Option PyFloat :=
  let chars := text.toList
  if chars = fractionText .nan then some .nan
  else if chars = fractionText (.inf false) then some (.inf false)
  else if chars = fractionText (.inf true) then some (.inf true)
  else if '.' ∈ chars then some (readFraction chars)
  else if isDouble (intOfText chars) then some (.finite (intOfText chars))
  else some (.inf false)

def plainInt (text : String) : Option ℤ :=
  if intText (intOfText text.toList) = text.toList then some (intOfText text.toList) else none

/-- A runtime whose floats are written as fractions. -/
def plainRuntime : Runtime where
  loads _ := .error ("ValueError", "")
  repr := plainRepr
  upper := id
  lower := id
  parseFloat := plainFloat
  parseInt := plainInt

lemma intText_head {n : ℤ} (h : 0 ≤ n) : (intText n).head? ≠ some '-' := by
  cases n with
  | negSucc n => exact absurd h (by simp)
  | ofNat n =>
    intro hhead
    have hmem : '-' ∈ Nat.toDigits 10 n := List.mem_of_mem_head? hhead
    exact absurd (isDigit_of_mem hmem) (by decide)

lemma plainFloat_int (n : ℤ) :
    plainFloat (String.ofList (intText n)) =
      if isDouble n then some (.finite n) else some (.inf false) := by
  have hne (x : PyFloat) : intText n ≠ fractionText x := (FloatText.fraction.ne_int x n).symm
  have hdot : '.' ∉ intText n := fun h => intText_no_dot h rfl
  simp only [plainFloat, String.toList_ofList, if_neg (hne _), if_neg hdot, intOfText_intText]

lemma plainFloat_float (x : PyFloat) : plainFloat (plainRepr (.float x)) = some x := by
  match x with
  | .nan       => decide
  | .inf true  => decide
  | .inf false => decide
  | .finite q =>
    by_cases hzero : q = 0
    · subst hzero
      decide
    · have hrepr : plainRepr (.float (.finite q)) = String.ofList (fractionText (.finite q)) := by
        simp [plainRepr, hzero]
      have hne (x : PyFloat) (hx : x ≠ .finite q) : fractionText (.finite q) ≠ fractionText x :=
        fun h => hx (fractionText_injective h).symm
      have hnan := hne .nan (by simp)
      have hinf (b : Bool) := hne (.inf b) (by simp)
      simp only [hrepr, plainFloat, String.toList_ofList, if_neg hnan, if_neg (hinf _),
        if_pos (fractionText_mem q), readFraction_text]

lemma plainInt_float (x : PyFloat) : plainInt (plainRepr (.float x)) = none := by
  rw [plainInt, if_neg]
  by_cases hzero : x = .finite 0
  · subst hzero
    decide
  · rw [plainRepr, if_neg hzero, String.toList_ofList]
    exact (FloatText.fraction.ne_int x _).symm

lemma plainRuntime_texts : NumberTexts plainRuntime where
  int_parse n := by
    show plainInt (String.ofList (intText n)) = some n
    simp [plainInt, intOfText_intText]
  float_parse := plainFloat_float
  float_not_int := plainInt_float
  int_float n := by
    show plainFloat (String.ofList (intText n)) = some (.finite n) ↔ isDouble n = true
    rw [plainFloat_int]
    split <;> simp [*]
  int_plain n hn := by
    show (String.ofList (intText n)).toList.head? ≠ some '-'
    rw [String.toList_ofList]
    exact intText_head hn
  float_plain x hx := by
    left
    show (plainRepr (.float x)).toList.head? ≠ some '-'
    by_cases hzero : x = .finite 0
    · subst hzero
      decide
    · rw [plainRepr, if_neg hzero, String.toList_ofList]
      match x with
      | .nan       => decide
      | .inf false => decide
      | .inf true  => cases hx
      | .finite q  =>
        have hq : 0 ≤ q.num := by simpa [PyFloat.lt] using hx
        rw [fractionText, List.head?_append_of_ne_nil _ (intText_ne_nil _)]
        exact intText_head hq
  falsy value hvalue := by
    cases value with
    | null => decide
    | bool b =>
      cases b with
      | false => decide
      | true => cases hvalue
    | int n =>
      obtain rfl : n = 0 := by simpa [Json.truthy] using hvalue
      decide
    | float x =>
      obtain rfl : x = .finite 0 := by simpa [Json.truthy] using hvalue
      decide
    | str s =>
      obtain rfl : s = "" := by simpa [Json.truthy] using hvalue
      decide
    | arr items =>
      obtain rfl : items = [] := by simpa [Json.truthy] using hvalue
      decide
    | obj fields =>
      obtain rfl : fields = [] := by simpa [Json.truthy] using hvalue
      decide

def noChecks : OtherChecks :=
  { spec := fun _ => [], workdir := fun _ => [], launch := fun _ => [], binding := fun _ => [] }

def resumedSubmit (goal : String) : Dict Json :=
  [("spec", .str "experiments/specs/parser.yaml"), ("model", .str "deepseek/deepseek-v4-flash"),
    ("workdir", .str "/workspaces/parser"), ("goal", .str goal), ("resume", .bool true),
    ("parent_run_id", .str "run-1"), ("image", .str "fleet/job-lint"),
    ("admission", .obj [("required", .bool true), ("campaign_budget_usd", .int 5),
      ("campaign_concurrency", .int 2)]),
    ("execution", .obj [("backend", .str "opencode"), ("thinking_budget_tokens", .int 1024),
      ("no_commit", .bool true)])]

end AgenticDynamics.Fleet.Submit
