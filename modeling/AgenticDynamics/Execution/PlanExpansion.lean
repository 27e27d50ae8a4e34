import AgenticDynamics.Execution.PlanUnits

/-!
# Expanding a phase from its plan

The one phase that declares a plan is replaced by a slice and a gate for each unit of the plan. The
runner catches a `ValueError` and nothing else; a number that is not one passes every comparison
that refuses numbers above or below a bound.
-/

namespace AgenticDynamics.Execution.PlanExpansion

open Python

/-! ### Prompts -/

/-- `text.replace(old, new)` from the left, with a number of characters still to be passed over. -/
def replaceFrom (old new : List Char) : ℕ → List Char → List Char
  | _, []         => []
  | n + 1, _ :: l => replaceFrom old new n l
  | 0, c :: l     =>
    if old.isPrefixOf (c :: l) then new ++ replaceFrom old new (old.length - 1) l
    else c :: replaceFrom old new 0 l

/-- `text.replace(old, new)` for an `old` that is not empty. -/
def replace (old new text : String) : String :=
  String.ofList (replaceFrom old.toList new.toList 0 text.toList)

/-- `text or fallback`. -/
def textOr (text fallback : String) : String := if text = "" then fallback else text

def renderUnitPrompt (prompt : String) (unit : PlanUnit) : String :=
  replace "\x7bunit_acceptance\x7d" (textOr unit.acceptance "(none stated)")
    (replace "\x7bunit_files\x7d" (textOr (", ".intercalate unit.files) "(none named)")
      (replace "\x7bunit_goal\x7d" unit.goal (replace "\x7bunit_id\x7d" unit.id prompt)))

example : replace "\x7ba\x7d" "b" "x \x7ba\x7d y" = "x b y" := by decide +kernel

/-! ### Slices and gates -/

section Expansion

variable (host : Runtime)

/-- `str(phase_def.get("name") or "execute")`. -/
def baseName (target : Dict Json) : String :=
  (Json.orElse (Dict.get? "name" target) (.str "execute")).text host

def sliceName (target : Dict Json) (unit : PlanUnit) : String :=
  baseName host target ++ "__" ++ unit.id

def gateName (unit : PlanUnit) : String := "g_" ++ unit.id ++ "_test_gate"

def raisedBy {α : Type} (x : Except String α) : Except PlanFault α :=
  x.mapError PlanFault.raised

/-- What is there under a key and counts as true. -/
def declared? (key : String) (target : Dict Json) : Option Json :=
  (Dict.get? key target).filter Json.truthy

/-- The markers of `requires_content`. -/
def contentMarkers (value : Json) : Except String (Dict Json) :=
  match value with
  | .obj fields => fields.mapM fun kv => (kv.2.toList).map fun markers => (kv.1, .arr markers)
  | _           => .error "AttributeError"

/-- What a slice takes from the declaring phase. -/
def carriedFields (target : Dict Json) : Except PlanFault (Dict Json) := do
  let kept := ["scope", "timeout", "run_model", "enforce_pytest", "deploy_allowed",
    "no_emit"].filterMap fun key => (Dict.get? key target).map fun value => (key, value)
  let files ← match declared? "requires_files" target with
    | none       => .ok []
    | some value => (raisedBy value.toList).map fun items => [("requires_files", Json.arr items)]
  let content ← match declared? "requires_content" target with
    | none       => .ok []
    | some value =>
      (raisedBy (contentMarkers value)).map fun fields => [("requires_content", Json.obj fields)]
  return kept ++ files ++ content

/-- `int(phase_def.get("timeout", 1800) or 1800)`. -/
def gateTimeout (target : Dict Json) : Except PlanFault ℤ :=
  raisedBy ((Json.orElse (Dict.get? "timeout" target) (.int 1800)).toInt host)

/-- A slice with what it takes from the declaring phase. -/
def sliceOf (target carried : Dict Json) (unit : PlanUnit) : Dict Json :=
  [("name", .str (sliceName host target unit)), ("kind", .str "agent"),
    ("prompt", .str (renderUnitPrompt
      (((Dict.get? "prompt" target).getD (.str "")).text host) unit)),
    ("requires_deliverable", .bool true), ("unit_id", .str unit.id),
    ("unit_acceptance", .str unit.acceptance)] ++ carried

def unitSliceDef (target : Dict Json) (unit : PlanUnit) : Except PlanFault (Dict Json) :=
  (carriedFields target).map fun carried => sliceOf host target carried unit

def gateOf (target : Dict Json) (timeout : ℤ) (unit : PlanUnit) : Dict Json :=
  [("name", .str (gateName unit)), ("kind", .str "test"),
    ("scope", .str ((Json.orElse (Dict.get? "scope" target) (.str "implementation")).text host)),
    ("timeout", .int timeout), ("tests", .arr (unit.tests.map .str)), ("unit_id", .str unit.id),
    ("prompt", .str ("The independent test runner verifies plan unit `" ++ unit.id ++ "` (" ++
      String.ofList (unit.goal.toList.take 200) ++ ") against the targets the unit names. A " ++
      "unit that names no targets SKIPS explicitly (recorded as test_gate_note; no fabricated " ++
      "verdict)."))]

def unitGateDef (target : Dict Json) (unit : PlanUnit) : Except PlanFault (Dict Json) :=
  (gateTimeout host target).map fun timeout => gateOf host target timeout unit

/-! ### The expansion -/

/-- The names of the slice and the gate of a unit. -/
def pairNames (target : Dict Json) (unit : PlanUnit) : List String :=
  [sliceName host target unit, gateName unit]

/-- The slices and gates, with the names that are taken. -/
def splice (target : Dict Json) (reserved : List String) :
    List PlanUnit → List String → Except PlanFault (List (Dict Json))
  | [],            _         => .ok []
  | unit :: units, generated => do
    let sliceDef ← unitSliceDef host target unit
    let gateDef ← unitGateDef host target unit
    match (pairNames host target unit).find? fun name => name ∈ reserved ∨ name ∈ generated with
    | some name =>
      .error (.value ("expanded phase name " ++ quoted host name ++
        " collides with a declared or generated phase name"))
    | none => do
      let rest ← splice target reserved units (generated ++ pairNames host target unit)
      return sliceDef :: gateDef :: rest

def declares (p : Dict Json) : Bool := (Dict.get? "expand_from_plan" p).any Json.truthy

/-- `str(p.get("name", "?"))`. -/
def phaseName (p : Dict Json) : String := ((Dict.get? "name" p).getD (.str "?")).text host

/-- `str(target.get("expand_from_plan", "")).strip()`. -/
def planRefOf (target : Dict Json) : String :=
  strip (((Dict.get? "expand_from_plan" target).getD (.str "")).text host)

/-- What the ledger keeps of an expansion. -/
structure ExpansionRecord where
  plan : String
  basePhase : String
  units : ℕ
  phases : List String
  unitBudgetsUsd : List (String × PyFloat)
  totalBudgetUsd : PyFloat

/-- `round(x, 6)`. -/
def roundUsd : PyFloat → PyFloat
  | .finite q => .finite (roundHalfEven (q * 1000000) / 1000000)
  | x         => x

/-- `sum(unit["budget_usd"] for unit in units)`. -/
def totalBudget (units : List PlanUnit) : PyFloat := PyFloat.sum (units.map PlanUnit.budgetUsd)

/-- The budgets of the units do not compare as above the one of the run. -/
def withinBudget (runBudget : Option PyFloat) (units : List PlanUnit) : Bool :=
  match runBudget with
  | none        => true
  | some budget => !PyFloat.lt budget (totalBudget units)

-- `money` is `f"{x:.4f}"`, and `artifact` the file that a plan names.
variable (money : PyFloat → String) (artifact : String → PlanArtifact)
  (runBudget : Option PyFloat) (unitCap : ℤ)

/-- The units of a plan that pass the checks before the splice. -/
def admitUnits (planRef : String) : Except PlanFault (List PlanUnit) := do
  let units ← orderPlanUnits (← loadPlanUnits host planRef (artifact planRef))
  if unitCap < units.length then
    .error (.value ("plan " ++ planRef ++ " names " ++ toString units.length ++
      " units — above the " ++ toString unitCap ++ "-unit cap (the cap keeps N bounded; raise " ++
      "workflow.params.plan_unit_cap to allow more)"))
  else if withinBudget runBudget units = false then
    .error (.value ("plan " ++ planRef ++ " unit budgets sum to $" ++ money (totalBudget units) ++
      " — above the run budget $" ++ money (runBudget.getD .nan) ++ " (spec.stop.budget_usd)"))
  else .ok units

def expandPlanPhases (phases : List (Dict Json)) :
    Except PlanFault (List (Dict Json) × Option ExpansionRecord) :=
  match phases.filter declares with
  | [] => .ok (phases, none)
  | [target] => do
    let planRef := planRefOf host target
    if planRef = "" then
      .error (.value "expand_from_plan must name a non-empty plan artifact path")
    else
      let units ← admitUnits host money artifact runBudget unitCap planRef
      let before := phases.takeWhile fun p => !declares p
      let after := (phases.dropWhile fun p => !declares p).drop 1
      let splices ← splice host target ((before ++ after).map (phaseName host)) units []
      return (before ++ splices ++ after, some
        { plan := planRef, basePhase := baseName host target, units := units.length
          phases := splices.map (phaseName host)
          unitBudgetsUsd := units.map fun unit => (unit.id, unit.budgetUsd)
          totalBudgetUsd := roundUsd (totalBudget units) })
  | declaring =>
    .error (.value ("only one phase may declare expand_from_plan — got " ++ host.repr (.arr
      (declaring.map fun p => .str (((Dict.get? "name" p).getD .null).text host)))))

/-! ### What an expansion keeps -/

/-- The one phase that declares a plan is replaced by a slice and a gate for each unit. -/
structure InPlace (phases out : List (Dict Json)) (target : Dict Json)
    (units : List PlanUnit) (slice gate : PlanUnit → Dict Json) (before after : List (Dict Json)) :
    Prop where
  place : phases = before ++ target :: after
  declares : declares target = true
  others : ∀ p ∈ before ++ after, PlanExpansion.declares p = false
  spliced : out = before ++ units.flatMap (fun unit => [slice unit, gate unit]) ++ after
  slices : ∀ unit ∈ units, unitSliceDef host target unit = .ok (slice unit)
  gates : ∀ unit ∈ units, unitGateDef host target unit = .ok (gate unit)
  /-- The units are those of the plan, each once. -/
  planned : ∃ loaded, loadPlanUnits host (planRefOf host target)
    (artifact (planRefOf host target)) = .ok loaded ∧ units.Perm loaded
  ordered : ∀ earlier unit later, units = earlier ++ unit :: later →
    ∀ dep ∈ unit.dependsOn, ∃ other ∈ earlier, other.id = dep
  distinct : ((units.flatMap fun unit => [slice unit, gate unit]).map (phaseName host)).Nodup
  fresh : ∀ unit ∈ units, ∀ p ∈ before ++ after, phaseName host (slice unit) ≠ phaseName host p ∧
    phaseName host (gate unit) ≠ phaseName host p
  capped : (units.length : ℤ) ≤ unitCap
  nonnegative : ∀ unit ∈ units, PyFloat.le (.finite 0) unit.budgetUsd = true
  affordable : ∀ budget, runBudget = some budget → PyFloat.le (totalBudget units) budget = true

/-- What comes of an expansion: a `ValueError`, the same phases where none declares a plan, or the
declaring phase replaced in place. -/
def ExpansionKept (phases : List (Dict Json)) :
    Except PlanFault (List (Dict Json) × Option ExpansionRecord) → Prop
  | .error f           => f.IsValueError
  | .ok (out, none)    => out = phases ∧ ∀ p ∈ phases, declares p = false
  | .ok (out, some _) => ∃ target units slice gate before after,
    InPlace host artifact runBudget unitCap phases out target units slice gate before after

/-- The names of the slices and gates are distinct, and no other phase has one of them. -/
def NamesFree (target : Dict Json) (reserved : List String) (units : List PlanUnit) : Prop :=
  (units.flatMap (pairNames host target)).Nodup ∧
    ∀ name ∈ units.flatMap (pairNames host target), name ∉ reserved

/-- The plan reaches no budget that cannot be converted; a plan whose units are admitted belongs to
a phase whose fields can be read; and if it is spliced in, its budgets and the one of the run are
numbers. -/
structure Sound (phases : List (Dict Json)) (target : Dict Json) : Prop where
  inRange : ∀ raw entries,
    readPlan host (planRefOf host target) (artifact (planRefOf host target)) = .ok raw →
    planEntries raw = some entries → ¬ Overflows host 1 [] entries
  readable : ∀ units,
    admitUnits host money artifact runBudget unitCap (planRefOf host target) = .ok units →
    ¬ Fatal (carriedFields target) ∧
      ∀ carried, carriedFields target = .ok carried → ¬ Fatal (gateTimeout host target)
  numbers : ∀ units carried timeout,
    admitUnits host money artifact runBudget unitCap (planRefOf host target) = .ok units →
    carriedFields target = .ok carried → gateTimeout host target = .ok timeout →
    NamesFree host target
      ((phases.filter fun p => !declares p).map (phaseName host)) units →
    (∀ unit ∈ units, unit.budgetUsd ≠ .nan) ∧ runBudget ≠ some .nan

end Expansion

section Facts

variable {host : Runtime} {target : Dict Json} {reserved generated : List String}
  {unit : PlanUnit} {units : List PlanUnit} {carried : Dict Json} {timeout : ℤ}
  {out : List (Dict Json)}

/-! ### Names -/

def doubled : List Char → ℕ
  | a :: b :: l => (if a = '_' ∧ b = '_' then 1 else 0) + doubled (b :: l)
  | _           => 0

lemma doubled_append (l l' : List Char) : doubled (l ++ l') =
    doubled l + doubled l' + if l.getLast? = some '_' ∧ l'.head? = some '_' then 1 else 0 := by
  induction l with
  | nil => simp [doubled]
  | cons a l ih =>
    cases l with
    | nil =>
      cases l' with
      | nil => simp [doubled]
      | cons b l' => simp [doubled, Nat.add_comm]
    | cons b l =>
      have hlast : (a :: b :: l).getLast? = (b :: l).getLast? := List.getLast?_cons_cons
      rw [List.cons_append, List.cons_append, doubled, ← List.cons_append, ih, doubled, hlast]
      omega

lemma slice_ne_gate {base id : List Char} (hne : id ≠ []) (hstart : id.head? ≠ some '_') :
    base ++ ("__".toList ++ id) ≠ "g_".toList ++ (id ++ "_test_gate".toList) := by
  intro heq
  have hend : "_test_gate".toList.getLast? = some 'e' := by decide
  have hlast : id.getLast? = some 'e' := by
    have hlasts := congrArg List.getLast? heq
    have hid : id.getLast? = some (id.getLast hne) := List.getLast?_eq_some_getLast hne
    simpa only [List.getLast?_append, hid, hend, Option.some_or] using hlasts
  have hhead : (id ++ "_test_gate".toList).head? ≠ some '_' := by
    rw [List.head?_append_of_ne_nil _ hne]
    exact hstart
  have hpairs := congrArg doubled heq
  have hunder : doubled "__".toList = 1 := by decide
  have hopening : doubled "g_".toList = 0 := by decide
  have hsuffix : doubled "_test_gate".toList = 0 := by decide
  have hnot : ('e' = '_') = False := by decide
  simp only [doubled_append base, doubled_append "__".toList, doubled_append "g_".toList,
    doubled_append id, hunder, hopening, hsuffix, hlast, hhead, hstart, hnot, Option.some.injEq,
    and_false, false_and, if_false] at hpairs
  omega

lemma head_of_isUnitId {text : String} (h : isUnitId text = true) :
    text.toList ≠ [] ∧ text.toList.head? ≠ some '_' := by
  rw [isUnitId] at h
  cases htext : text.toList with
  | nil => simp [htext] at h
  | cons c l =>
    refine ⟨List.cons_ne_nil _ _, fun hc => ?_⟩
    obtain rfl : c = '_' := by simpa using hc
    simp [htext, isTokenStart] at h

lemma sliceName_ne_gateName (h : isUnitId unit.id = true) :
    sliceName host target unit ≠ gateName unit := by
  intro heq
  obtain ⟨hne, hstart⟩ := head_of_isUnitId h
  refine @slice_ne_gate (baseName host target).toList _ hne hstart ?_
  simpa [sliceName, gateName] using congrArg String.toList heq

/-! ### The splice -/

def pairOf (host : Runtime) (target carried : Dict Json) (timeout : ℤ) (unit : PlanUnit) :
    List (Dict Json) :=
  [sliceOf host target carried unit, gateOf host target timeout unit]

/-- No name of the units is taken, those of the units before included. -/
def Untaken (host : Runtime) (target : Dict Json) (reserved : List String) :
    List PlanUnit → List String → Prop
  | [],            _         => True
  | unit :: units, generated =>
    (∀ name ∈ pairNames host target unit, name ∉ reserved ∧ name ∉ generated) ∧
      Untaken host target reserved units (generated ++ pairNames host target unit)

lemma splice_cons (hcarried : carriedFields target = .ok carried)
    (htimeout : gateTimeout host target = .ok timeout) :
    splice host target reserved (unit :: units) generated =
      match (pairNames host target unit).find? fun name =>
        name ∈ reserved ∨ name ∈ generated with
      | some name =>
        .error (.value ("expanded phase name " ++ quoted host name ++
          " collides with a declared or generated phase name"))
      | none => splice host target reserved units (generated ++ pairNames host target unit) >>=
        fun rest => .ok (sliceOf host target carried unit :: gateOf host target timeout unit ::
          rest) := by
  rw [splice, unitSliceDef, unitGateDef, hcarried, htimeout]
  rfl

lemma splice_eq_ok (hcarried : carriedFields target = .ok carried)
    (htimeout : gateTimeout host target = .ok timeout) :
    splice host target reserved units generated = .ok out ↔
      Untaken host target reserved units generated ∧
        out = units.flatMap (pairOf host target carried timeout) := by
  induction units generalizing generated out with
  | nil => simp [splice, Untaken, eq_comm]
  | cons unit units ih =>
    have hfree : (∀ name ∈ pairNames host target unit, name ∉ reserved ∧ name ∉ generated) ↔
        (pairNames host target unit).find? (fun name => name ∈ reserved ∨ name ∈ generated) =
          none := by
      simp [List.find?_eq_none]
    rw [splice_cons hcarried htimeout, Untaken, hfree]
    cases (pairNames host target unit).find? fun name => name ∈ reserved ∨ name ∈ generated with
    | some name => simp
    | none =>
      simp only [bind_eq_ok, ih, Except.ok.injEq, true_and, List.flatMap_cons]
      constructor
      · rintro ⟨_, ⟨huntaken, rfl⟩, rfl⟩
        exact ⟨huntaken, rfl⟩
      · rintro ⟨huntaken, rfl⟩
        exact ⟨_, ⟨huntaken, rfl⟩, rfl⟩

lemma not_fatal_splice (hcarried : carriedFields target = .ok carried)
    (htimeout : gateTimeout host target = .ok timeout) :
    ¬ Fatal (splice host target reserved units generated) := by
  induction units generalizing generated with
  | nil => simp [splice]
  | cons unit units ih =>
    rw [splice_cons hcarried htimeout]
    split
    · simp
    · simp [fatal_bind, ih]

lemma fatal_splice_iff (hne : units ≠ []) :
    Fatal (splice host target reserved units generated) ↔
      Fatal (carriedFields target) ∨
        ∃ carried, carriedFields target = .ok carried ∧ Fatal (gateTimeout host target) := by
  obtain ⟨unit, units, rfl⟩ := List.exists_cons_of_ne_nil hne
  cases hcarried : carriedFields target with
  | error f =>
    rw [splice, unitSliceDef, hcarried]
    change Fatal (.error f) ↔ _
    simp [fatal_error]
  | ok carried =>
    cases htimeout : gateTimeout host target with
    | error f =>
      rw [splice, unitSliceDef, unitGateDef, hcarried, htimeout]
      change Fatal (.error f) ↔ _
      simp [fatal_error]
    | ok timeout =>
      simp [not_fatal_splice hcarried htimeout]

lemma readable_of_splice (hne : units ≠ [])
    (h : splice host target reserved units generated = .ok out) :
    ∃ carried timeout, carriedFields target = .ok carried ∧
      gateTimeout host target = .ok timeout := by
  obtain ⟨unit, units, rfl⟩ := List.exists_cons_of_ne_nil hne
  cases hcarried : carriedFields target with
  | error f =>
    rw [splice, unitSliceDef, hcarried] at h
    cases h
  | ok carried =>
    cases htimeout : gateTimeout host target with
    | error f =>
      rw [splice, unitSliceDef, unitGateDef, hcarried, htimeout] at h
      cases h
    | ok timeout => exact ⟨carried, timeout, rfl, rfl⟩

lemma untaken_iff (htoken : ∀ unit ∈ units, isUnitId unit.id = true) :
    Untaken host target reserved units generated ↔
      (units.flatMap (pairNames host target)).Nodup ∧
        ∀ name ∈ units.flatMap (pairNames host target), name ∉ reserved ∧ name ∉ generated := by
  induction units generalizing generated with
  | nil => simp [Untaken]
  | cons unit units ih =>
    have hpair : (pairNames host target unit).Nodup := by
      simpa [pairNames] using sliceName_ne_gateName (htoken unit List.mem_cons_self)
    rw [Untaken, ih fun other hother => htoken other (List.mem_cons_of_mem _ hother),
      List.flatMap_cons, List.nodup_append]
    constructor
    · rintro ⟨hfirst, hnodup, hrest⟩
      refine ⟨⟨hpair, hnodup, fun a ha b hb hab => ?_⟩, fun name hname => ?_⟩
      · exact (hrest b hb).2 (List.mem_append_right _ (hab ▸ ha))
      · rcases List.mem_append.mp hname with hhead | htail
        · exact hfirst name hhead
        · exact ⟨(hrest name htail).1, fun hold => (hrest name htail).2
            (List.mem_append_left _ hold)⟩
    · rintro ⟨⟨-, hnodup, hdisjoint⟩, hfree⟩
      refine ⟨fun name hname => hfree name (List.mem_append_left _ hname), hnodup,
        fun name hname => ⟨(hfree name (List.mem_append_right _ hname)).1, fun hold => ?_⟩⟩
      rcases List.mem_append.mp hold with hbefore | hown
      · exact (hfree name (List.mem_append_right _ hname)).2 hbefore
      · exact hdisjoint name hown name hname rfl

/-! ### Budgets -/

lemma le_iff_not_lt {x y : PyFloat} (hx : x ≠ .nan) :
    PyFloat.le x y = true ↔ PyFloat.lt y x = false ∧ y ≠ .nan := by
  cases x with
  | finite a =>
    cases y with
    | finite b => simp [PyFloat.le, PyFloat.lt, le_iff_lt_or_eq]
    | inf negative => cases negative <;> simp [PyFloat.le, PyFloat.lt]
    | nan => simp [PyFloat.le, PyFloat.lt]
  | inf negative =>
    cases y with
    | finite b => cases negative <;> simp [PyFloat.le, PyFloat.lt]
    | inf negative' => cases negative <;> cases negative' <;> simp [PyFloat.le, PyFloat.lt]
    | nan => simp [PyFloat.le, PyFloat.lt]
  | nan => exact absurd rfl hx

lemma le_zero_iff {x : PyFloat} :
    PyFloat.le (.finite 0) x = true ↔ PyFloat.lt x (.finite 0) = false ∧ x ≠ .nan :=
  le_iff_not_lt (by simp)

lemma le_zero_add {x y : PyFloat} (hx : PyFloat.le (.finite 0) x = true)
    (hy : PyFloat.le (.finite 0) y = true) : PyFloat.le (.finite 0) (PyFloat.add x y) = true := by
  rw [le_zero_iff] at hx hy ⊢
  cases x with
  | finite a =>
    cases y with
    | finite b =>
      have ha : 0 ≤ a := by simpa [PyFloat.lt] using hx.1
      have hb : 0 ≤ b := by simpa [PyFloat.lt] using hy.1
      have hsum : ¬ a + b < 0 := not_lt.mpr (add_nonneg ha hb)
      simp only [PyFloat.add, PyFloat.ofRat]
      split_ifs <;> simp [PyFloat.lt, hsum]
    | inf negative => exact hy
    | nan => exact absurd rfl hy.2
  | inf negative =>
    cases y with
    | finite b => exact hx
    | inf negative' =>
      cases negative with
      | true => simp [PyFloat.lt] at hx
      | false =>
        cases negative' with
        | true => simp [PyFloat.lt] at hy
        | false => exact hx
    | nan => exact absurd rfl hy.2
  | nan => exact absurd rfl hx.2

lemma le_zero_sum {xs : List PyFloat} (h : ∀ x ∈ xs, PyFloat.le (.finite 0) x = true) :
    PyFloat.le (.finite 0) (PyFloat.sum xs) = true := by
  have hfold : ∀ acc, PyFloat.le (.finite 0) acc = true →
      PyFloat.le (.finite 0) (xs.foldl PyFloat.add acc) = true := by
    induction xs with
    | nil => exact fun _ hacc => hacc
    | cons x xs ih =>
      intro acc hacc
      exact ih (fun y hy => h y (List.mem_cons_of_mem _ hy)) _
        (le_zero_add hacc (h x List.mem_cons_self))
  exact hfold _ (by decide +kernel)

lemma budgets_iff {runBudget : Option PyFloat} (hnormal : ∀ unit ∈ units, Normal unit)
    (hwithin : withinBudget runBudget units = true) :
    (∀ unit ∈ units, PyFloat.le (.finite 0) unit.budgetUsd = true) ∧
        (∀ budget, runBudget = some budget → PyFloat.le (totalBudget units) budget = true) ↔
      (∀ unit ∈ units, unit.budgetUsd ≠ .nan) ∧ runBudget ≠ some .nan := by
  have hzero : ∀ unit ∈ units,
      (PyFloat.le (.finite 0) unit.budgetUsd = true ↔ unit.budgetUsd ≠ .nan) := by
    intro unit hunit
    rw [le_zero_iff, and_iff_right (hnormal unit hunit).budget]
  constructor
  · rintro ⟨hnonneg, hafford⟩
    refine ⟨fun unit hunit => (hzero unit hunit).mp (hnonneg unit hunit), ?_⟩
    rintro rfl
    have hle := hafford .nan rfl
    simp [PyFloat.le, PyFloat.lt] at hle
  · rintro ⟨hnumbers, hrun⟩
    have hnonneg : ∀ unit ∈ units, PyFloat.le (.finite 0) unit.budgetUsd = true :=
      fun unit hunit => (hzero unit hunit).mpr (hnumbers unit hunit)
    refine ⟨hnonneg, ?_⟩
    rintro budget rfl
    have htotal : totalBudget units ≠ .nan := by
      have hsum : PyFloat.le (.finite 0) (totalBudget units) = true :=
        le_zero_sum (by simpa using hnonneg)
      exact (le_zero_iff.mp hsum).2
    rw [le_iff_not_lt htotal]
    exact ⟨by simpa [withinBudget] using hwithin, fun hnan => hrun (by rw [hnan])⟩

/-! ### The declaring phase -/

lemma split_of_filter {α : Type} {p : α → Bool} {l : List α} {a : α} (h : l.filter p = [a]) :
    l = l.takeWhile (fun b => !p b) ++ a :: (l.dropWhile fun b => !p b).drop 1 ∧ p a = true ∧
      l.filter (fun b => !p b) =
        l.takeWhile (fun b => !p b) ++ (l.dropWhile fun b => !p b).drop 1 := by
  induction l with
  | nil => cases h
  | cons b l ih =>
    by_cases hb : p b = true
    · rw [List.filter_cons_of_pos hb] at h
      obtain ⟨rfl, hrest⟩ := List.cons.inj h
      have hnone : l.filter (fun b => !p b) = l := by
        rw [List.filter_eq_self]
        intro c hc
        simpa using List.filter_eq_nil_iff.mp hrest c hc
      simp [hb, hnone]
    · rw [List.filter_cons_of_neg hb] at h
      obtain ⟨hsplit, ha, hfilter⟩ := ih h
      have hnot : (!p b) = true := by simpa using hb
      simp only [List.takeWhile_cons, List.dropWhile_cons, List.filter_cons, hnot, if_true,
        List.cons_append, ← hsplit, ← hfilter]
      exact ⟨trivial, ha, trivial⟩

/-! ### Admitted units -/

section Admitted

variable {money : PyFloat → String} {artifact : String → PlanArtifact}
  {runBudget : Option PyFloat} {unitCap : ℤ} {phases : List (Dict Json)} {planRef : String}

lemma admitUnits_eq_ok
    (h : admitUnits host money artifact runBudget unitCap planRef = .ok units) :
    ∃ loaded, loadPlanUnits host planRef (artifact planRef) = .ok loaded ∧
      orderPlanUnits loaded = .ok units ∧ (units.length : ℤ) ≤ unitCap ∧
      withinBudget runBudget units = true := by
  simp only [admitUnits, bind_eq_ok] at h
  obtain ⟨loaded, hloaded, ordered, hordered, h⟩ := h
  split_ifs at h with hcap hbudget
  cases h
  exact ⟨loaded, hloaded, hordered, not_lt.mp hcap, by simpa using hbudget⟩

/-- A plan that can be read as JSON is refused with a `ValueError`, unless its loop reaches an
oversized budget. -/
lemma fatal_admitUnits_iff
    (hjson : ∀ contents, artifact planRef = .text contents → ∃ raw, host.loads contents = .ok raw) :
    Fatal (admitUnits host money artifact runBudget unitCap planRef) ↔
      ∃ raw entries, readPlan host planRef (artifact planRef) = .ok raw ∧
        planEntries raw = some entries ∧ Overflows host 1 [] entries := by
  have hread : ¬ Fatal (readPlan host planRef (artifact planRef)) := by
    cases hartifact : artifact planRef with
    | missing => simp [readPlan]
    | unreadable detail => simp [readPlan]
    | undecodable detail => simp [readPlan, valueErrors]
    | text contents =>
      obtain ⟨raw, hraw⟩ := hjson contents hartifact
      simp [readPlan, hraw]
  have hchecks (units : List PlanUnit) : ¬ Fatal (if unitCap < units.length then
      .error (.value ("plan " ++ planRef ++ " names " ++ toString units.length ++
        " units — above the " ++ toString unitCap ++ "-unit cap (the cap keeps N bounded; raise " ++
        "workflow.params.plan_unit_cap to allow more)"))
      else if withinBudget runBudget units = false then
        .error (.value ("plan " ++ planRef ++ " unit budgets sum to $" ++
          money (totalBudget units) ++ " — above the run budget $" ++
          money (runBudget.getD .nan) ++ " (spec.stop.budget_usd)"))
      else .ok units : Except PlanFault (List PlanUnit)) := by
    split_ifs <;> simp
  simp only [admitUnits, fatal_bind, not_fatal_orderPlanUnits, hchecks, and_false, exists_false,
    or_false]
  rw [loadPlanUnits, fatal_bind]
  simp only [hread, false_or]
  constructor
  · rintro ⟨raw, hraw, hfatal⟩
    cases hentries : planEntries raw with
    | none => simp [hentries] at hfatal
    | some entries =>
      refine ⟨raw, entries, hraw, hentries, ?_⟩
      simpa [hentries, fatal_bind, fatal_loadEntries_iff, not_fatal_checkKnown] using hfatal
  · rintro ⟨raw, entries, hraw, hentries, hover⟩
    refine ⟨raw, hraw, ?_⟩
    simpa [hentries, fatal_bind, fatal_loadEntries_iff, not_fatal_checkKnown] using hover

lemma expandPlanPhases_of_sole (hsole : phases.filter declares = [target])
    (href : planRefOf host target ≠ "") :
    expandPlanPhases host money artifact runBudget unitCap phases =
      admitUnits host money artifact runBudget unitCap (planRefOf host target) >>= fun units =>
        splice host target ((phases.filter fun p => !declares p).map (phaseName host)) units [] >>=
          fun splices => .ok (phases.takeWhile (fun p => !declares p) ++ splices ++
            (phases.dropWhile fun p => !declares p).drop 1, some
              { plan := planRefOf host target, basePhase := baseName host target
                units := units.length, phases := splices.map (phaseName host)
                unitBudgetsUsd := units.map fun unit => (unit.id, unit.budgetUsd)
                totalBudgetUsd := roundUsd (totalBudget units) }) := by
  rw [expandPlanPhases, hsole, (split_of_filter hsole).2.2]
  simp only [if_neg href]
  rfl

lemma not_fatal_of_kept {x : Except PlanFault (List (Dict Json) × Option ExpansionRecord)}
    (h : ExpansionKept host artifact runBudget unitCap phases x) : ¬ Fatal x := by
  rintro ⟨f, rfl, hnot⟩
  exact hnot h

lemma kept_of_error {f : PlanFault} (h : ¬ Fatal (.error f : Except PlanFault (List (Dict Json) ×
    Option ExpansionRecord))) :
    ExpansionKept host artifact runBudget unitCap phases (.error f) := by
  rw [fatal_error, not_not] at h
  exact h

lemma target_eq_of_inPlace {target' : Dict Json} {slice gate : PlanUnit → Dict Json}
    {before after : List (Dict Json)} (hsole : phases.filter declares = [target])
    (h : InPlace host artifact runBudget unitCap phases out target' units slice gate before after) :
    target' = target := by
  have hbefore : before.filter declares = [] :=
    List.filter_eq_nil_iff.mpr fun p hp => by simp [h.others p (List.mem_append_left _ hp)]
  have hafter : after.filter declares = [] :=
    List.filter_eq_nil_iff.mpr fun p hp => by simp [h.others p (List.mem_append_right _ hp)]
  rw [h.place, List.filter_append, List.filter_cons_of_pos h.declares, hbefore, hafter] at hsole
  exact List.singleton_inj.mp hsole

lemma phaseName_pairOf : (pairOf host target carried timeout unit).map (phaseName host) =
    pairNames host target unit := by
  simp [pairOf, pairNames, phaseName, sliceOf, gateOf, Dict.get?, Json.text]

lemma phaseNames_flatMap :
    (units.flatMap (pairOf host target carried timeout)).map (phaseName host) =
      units.flatMap (pairNames host target) := by
  rw [List.map_flatMap]
  simp only [phaseName_pairOf]

lemma inPlace_of_admitted (hsole : phases.filter declares = [target])
    (hpassed : admitUnits host money artifact runBudget unitCap (planRefOf host target) = .ok units)
    (hcarried : carriedFields target = .ok carried)
    (htimeout : gateTimeout host target = .ok timeout)
    (hfree : NamesFree host target
      ((phases.filter fun p => !declares p).map (phaseName host)) units)
    (hnumbers : (∀ unit ∈ units, unit.budgetUsd ≠ .nan) ∧ runBudget ≠ some .nan) :
    InPlace host artifact runBudget unitCap phases
      (phases.takeWhile (fun p => !declares p) ++
        units.flatMap (pairOf host target carried timeout) ++
        (phases.dropWhile fun p => !declares p).drop 1)
      target units (sliceOf host target carried) (gateOf host target timeout)
      (phases.takeWhile fun p => !declares p)
      ((phases.dropWhile fun p => !declares p).drop 1) := by
  obtain ⟨hsplit, hdeclares, hothers⟩ := split_of_filter hsole
  obtain ⟨loaded, hloaded, hordered, hcap, hwithin⟩ := admitUnits_eq_ok hpassed
  obtain ⟨hnormal, -, -⟩ := loadPlanUnits_eq_ok hloaded
  obtain ⟨hperm, horder⟩ := orderPlanUnits_spec hnormal.ids hordered
  obtain ⟨hnonneg, hafford⟩ := (budgets_iff
    (fun unit hunit => hnormal.normal unit (hperm.mem_iff.mp hunit)) hwithin).mpr hnumbers
  have hreserved {name : String} (hname : name ∈ units.flatMap (pairNames host target))
      {p : Dict Json} (hp : p ∈ phases.filter fun p => !declares p) : name ≠ phaseName host p :=
    fun heq => hfree.2 name hname (List.mem_map.mpr ⟨p, hp, heq.symm⟩)
  exact
    { place := hsplit
      declares := hdeclares
      others := fun p hp => by
        rw [← hothers] at hp
        simpa using List.of_mem_filter hp
      spliced := rfl
      slices := fun unit _ => by rw [unitSliceDef, hcarried]; rfl
      gates := fun unit _ => by rw [unitGateDef, htimeout]; rfl
      planned := ⟨loaded, hloaded, hperm⟩
      ordered := horder
      distinct := by
        rw [show (units.flatMap fun unit => [sliceOf host target carried unit,
          gateOf host target timeout unit]) = units.flatMap (pairOf host target carried timeout)
            from rfl, phaseNames_flatMap]
        exact hfree.1
      fresh := fun unit hunit p hp => by
        rw [← hothers] at hp
        have hnames := @phaseName_pairOf host target unit carried timeout
        obtain ⟨hslice, hgate⟩ : phaseName host (sliceOf host target carried unit) =
            sliceName host target unit ∧
              phaseName host (gateOf host target timeout unit) = gateName unit := by
          simpa [pairOf, pairNames] using hnames
        rw [hslice, hgate]
        exact ⟨hreserved (List.mem_flatMap.mpr ⟨unit, hunit, by simp [pairNames]⟩) hp,
          hreserved (List.mem_flatMap.mpr ⟨unit, hunit, by simp [pairNames]⟩) hp⟩
      capped := hcap
      nonnegative := hnonneg
      affordable := hafford }

lemma untaken_admitted
    (hpassed : admitUnits host money artifact runBudget unitCap planRef = .ok units) :
    Untaken host target reserved units [] ↔ NamesFree host target reserved units := by
  obtain ⟨loaded, hloaded, hordered, -, -⟩ := admitUnits_eq_ok hpassed
  obtain ⟨hnormal, -, -⟩ := loadPlanUnits_eq_ok hloaded
  have hperm := (orderPlanUnits_spec hnormal.ids hordered).1
  rw [untaken_iff fun unit hunit => (hnormal.normal unit (hperm.mem_iff.mp hunit)).token, NamesFree]
  simp

lemma admitted_ne_nil
    (hpassed : admitUnits host money artifact runBudget unitCap planRef = .ok units) :
    units ≠ [] := by
  obtain ⟨loaded, hloaded, hordered, -, -⟩ := admitUnits_eq_ok hpassed
  obtain ⟨hnormal, -, hne⟩ := loadPlanUnits_eq_ok hloaded
  rintro rfl
  exact hne (orderPlanUnits_spec hnormal.ids hordered).1.nil_eq.symm

lemma kept_iff_sound (hsole : phases.filter declares = [target])
    (href : planRefOf host target ≠ "")
    (hjson : ∀ planRef contents, artifact planRef = .text contents →
      ∃ raw, host.loads contents = .ok raw) :
    ExpansionKept host artifact runBudget unitCap phases
        (expandPlanPhases host money artifact runBudget unitCap phases) ↔
      Sound host money artifact runBudget unitCap phases target := by
  have hadmitFatal := @fatal_admitUnits_iff host money artifact runBudget unitCap _
    (hjson (planRefOf host target))
  rw [expandPlanPhases_of_sole hsole href]
  constructor
  · intro hkept
    have hnot := not_fatal_of_kept hkept
    rw [fatal_bind, not_or] at hnot
    refine ⟨?_, fun units hpassed => ?_,
      fun units carried timeout hpassed hcarried htimeout hfree => ?_⟩
    · intro raw entries hraw hentries hover
      exact hnot.1 (hadmitFatal.mpr ⟨raw, entries, hraw, hentries, hover⟩)
    · have hsplice : ¬ Fatal (splice host target
          ((phases.filter fun p => !declares p).map (phaseName host)) units []) := by
        intro hfatal
        exact hnot.2 ⟨units, hpassed, fatal_bind.mpr (.inl hfatal)⟩
      rw [fatal_splice_iff (admitted_ne_nil hpassed), not_or] at hsplice
      exact ⟨hsplice.1, fun carried hcarried htimeout => hsplice.2 ⟨carried, hcarried, htimeout⟩⟩
    · have hsplice := (splice_eq_ok hcarried htimeout).mpr
        ⟨(untaken_admitted hpassed).mpr hfree, rfl⟩
      rw [hpassed] at hkept
      change ExpansionKept host artifact runBudget unitCap phases (splice host target
        ((phases.filter fun p => !declares p).map (phaseName host)) units [] >>= _) at hkept
      rw [hsplice] at hkept
      obtain ⟨target', units', slice, gate, before, after, hin⟩ := hkept
      obtain rfl := target_eq_of_inPlace hsole hin
      obtain ⟨loaded, hloaded, hordered, -, -⟩ := admitUnits_eq_ok hpassed
      obtain ⟨loaded', hloaded', hperm'⟩ := hin.planned
      rw [hloaded] at hloaded'
      cases hloaded'
      have hperm := (orderPlanUnits_spec (loadPlanUnits_eq_ok hloaded).1.ids hordered).1
      refine ⟨fun unit hunit => ?_, ?_⟩
      · have hunit' := hperm'.mem_iff.mpr (hperm.mem_iff.mp hunit)
        exact (le_zero_iff.mp (hin.nonnegative unit hunit')).2
      · rintro rfl
        have hle := hin.affordable .nan rfl
        simp [PyFloat.le, PyFloat.lt] at hle
  · intro hsound
    cases hpassed : admitUnits host money artifact runBudget unitCap (planRefOf host target) with
    | error f =>
      refine kept_of_error fun hfatal => ?_
      rw [fatal_error, ← @fatal_error (List PlanUnit), ← hpassed, hadmitFatal] at hfatal
      obtain ⟨raw, entries, hraw, hentries, hover⟩ := hfatal
      exact hsound.inRange raw entries hraw hentries hover
    | ok units =>
      obtain ⟨hfields, htimeouts⟩ := hsound.readable units hpassed
      change ExpansionKept host artifact runBudget unitCap phases (splice host target
        ((phases.filter fun p => !declares p).map (phaseName host)) units [] >>= _)
      cases hsplice : splice host target
        ((phases.filter fun p => !declares p).map (phaseName host)) units [] with
      | error f =>
        refine kept_of_error fun hfatal => ?_
        rw [fatal_error, ← @fatal_error (List (Dict Json)), ← hsplice,
          fatal_splice_iff (admitted_ne_nil hpassed)] at hfatal
        rcases hfatal with hfatal | ⟨carried, hcarried, hfatal⟩
        · exact hfields hfatal
        · exact htimeouts carried hcarried hfatal
      | ok splices =>
        obtain ⟨carried, timeout, hcarried, htimeout⟩ :=
          readable_of_splice (admitted_ne_nil hpassed) hsplice
        obtain ⟨huntaken, rfl⟩ := (splice_eq_ok hcarried htimeout).mp hsplice
        have hfree := (untaken_admitted hpassed).mp huntaken
        exact ⟨target, units, _, _, _, _, inPlace_of_admitted hsole hpassed hcarried htimeout hfree
          (hsound.numbers units carried timeout hpassed hcarried htimeout hfree)⟩

/-- An expansion keeps what it promises exactly if the plan of a sole declaring phase is sound. -/
theorem expansion_kept_iff
    (hjson : ∀ planRef contents, artifact planRef = .text contents →
      ∃ raw, host.loads contents = .ok raw) :
    ExpansionKept host artifact runBudget unitCap phases
        (expandPlanPhases host money artifact runBudget unitCap phases) ↔
      ∀ target, phases.filter declares = [target] → planRefOf host target ≠ "" →
        Sound host money artifact runBudget unitCap phases target := by
  cases hdeclaring : phases.filter declares with
  | nil =>
    rw [expandPlanPhases, hdeclaring]
    refine iff_of_true ⟨rfl, fun p hp => ?_⟩ nofun
    simpa using List.filter_eq_nil_iff.mp hdeclaring p hp
  | cons target rest =>
    cases rest with
    | nil =>
      by_cases href : planRefOf host target = ""
      · have hrefused : expandPlanPhases host money artifact runBudget unitCap phases =
            .error (.value "expand_from_plan must name a non-empty plan artifact path") := by
          rw [expandPlanPhases, hdeclaring]
          simp only [href, if_true]
        rw [hrefused]
        refine iff_of_true trivial fun other hother hne => ?_
        obtain rfl := List.singleton_inj.mp hother
        exact absurd href hne
      · rw [kept_iff_sound hdeclaring href hjson]
        constructor
        · intro hsound other hother _
          obtain rfl := List.singleton_inj.mp hother
          exact hsound
        · intro hsound
          exact hsound target rfl href
    | cons second rest =>
      rw [expandPlanPhases, hdeclaring]
      exact iff_of_true trivial nofun

end Admitted

end Facts

/-! ### Plans at hand -/

def planHost (text : String) (doc : Json) : Runtime where
  loads other :=
    if other = text then .ok doc
    else .error ("JSONDecodeError", "Expecting value: line 1 column 1 (char 0)")
  repr value := value.typeName
  upper := id
  lower := id

def plannedPhases : List (Dict Json) :=
  [[("name", .str "prior")],
    [("name", .str "execute"), ("expand_from_plan", .str "plan.json")]]

def onePlan (budget : Json) : Json :=
  .obj [("units", .arr [.obj [("id", .str "u1"), ("goal", .str "do it"), ("budget_usd", budget)]])]

def oneUnit (budget : PyFloat) : PlanUnit where
  id := "u1"
  goal := "do it"
  files := []
  tests := []
  acceptance := ""
  budgetUsd := budget
  dependsOn := []

def oneTarget : Dict Json :=
  [("name", .str "execute"), ("expand_from_plan", .str "plan.json")]

lemma json_planHost {text contents : String} {doc : Json}
    (h : PlanArtifact.text text = .text contents) :
    ∃ raw, (planHost text doc).loads contents = .ok raw := by
  cases h
  exact ⟨doc, if_pos rfl⟩

lemma sole_oneTarget : plannedPhases.filter declares = [oneTarget] := rfl

theorem one_unit_spliced :
    ExpansionKept (planHost "plan" (onePlan (.float (.finite 1)))) (fun _ => .text "plan")
      (some (.finite 5)) 24 plannedPhases
      (expandPlanPhases (planHost "plan" (onePlan (.float (.finite 1)))) (fun _ => "")
        (fun _ => .text "plan") (some (.finite 5)) 24 plannedPhases) := by
  refine (expansion_kept_iff fun _ _ h => json_planHost h).mpr fun target hsole _ => ?_
  obtain rfl := List.singleton_inj.mp (sole_oneTarget.symm.trans hsole)
  refine ⟨fun raw entries hraw hentries => ?_,
    fun units _ => ⟨not_fatal_ok, fun _ _ => not_fatal_ok⟩, fun units _ _ hunits _ _ _ => ?_⟩
  · cases hraw
    cases hentries
    rw [← fatal_loadEntries_iff]
    exact @not_fatal_ok _ [oneUnit (.finite 1)]
  · obtain ⟨loaded, hloaded, hordered, -, -⟩ := admitUnits_eq_ok hunits
    have hperm := (orderPlanUnits_spec (loadPlanUnits_eq_ok hloaded).1.ids hordered).1
    obtain rfl : [oneUnit (.finite 1)] = loaded := Except.ok.inj hloaded
    refine ⟨fun unit hunit => ?_, by simp⟩
    rw [List.mem_singleton.mp (hperm.mem_iff.mp hunit)]
    simp [oneUnit]

lemma oversized_not_kept {n : ℤ} (hn : floatLimit ≤ n) :
    ¬ ExpansionKept (planHost "plan" (onePlan (.int n))) (fun _ => .text "plan")
      (some (.finite 5)) 24 plannedPhases
      (expandPlanPhases (planHost "plan" (onePlan (.int n))) (fun _ => "") (fun _ => .text "plan")
        (some (.finite 5)) 24 plannedPhases) := by
  intro hkept
  have href : planRefOf (planHost "plan" (onePlan (.int n))) oneTarget = "plan.json" := by
    change strip "plan.json" = "plan.json"
    decide
  have hsound := (kept_iff_sound sole_oneTarget (by rw [href]; decide)
    fun _ _ h => json_planHost h).mp hkept
  refine hsound.inRange _ _ rfl rfl ⟨[], _, [], rfl, ⟨[], rfl⟩, ?_, n, rfl, hn⟩
  exact ⟨"u1", "do it", "", [], [], rfl, rfl, rfl, rfl, rfl⟩

/-- A budget that is not a number is spliced in under any run budget, and an integer beyond the
floats escapes as an `OverflowError`. -/
theorem odd_budgets_not_kept :
    ¬ ExpansionKept (planHost "plan" (onePlan (.float .nan))) (fun _ => .text "plan")
      (some (.finite 5)) 24 plannedPhases
      (expandPlanPhases (planHost "plan" (onePlan (.float .nan))) (fun _ => "")
        (fun _ => .text "plan") (some (.finite 5)) 24 plannedPhases) ∧
    ¬ ExpansionKept (planHost "plan" (onePlan (.int (2 ^ 1024)))) (fun _ => .text "plan")
      (some (.finite 5)) 24 plannedPhases
      (expandPlanPhases (planHost "plan" (onePlan (.int (2 ^ 1024)))) (fun _ => "")
        (fun _ => .text "plan") (some (.finite 5)) 24 plannedPhases) := by
  constructor
  · intro hkept
    have hsound := (kept_iff_sound sole_oneTarget (by decide) fun _ _ h => json_planHost h).mp hkept
    have hnumbers := hsound.numbers [oneUnit .nan] [] 1800 rfl rfl rfl ⟨by decide, by decide⟩
    exact hnumbers.1 _ List.mem_cons_self rfl
  · refine oversized_not_kept ?_
    rw [floatLimit, Int.cast_pow, Int.cast_ofNat]
    exact sub_le_self _ (by positivity)

end AgenticDynamics.Execution.PlanExpansion
