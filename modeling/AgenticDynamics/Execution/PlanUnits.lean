import AgenticDynamics.Library.Python
import AgenticDynamics.Library.Toposort

/-!
# The units of a plan

A phase may be expanded from a plan, a JSON document that lists units of work. Each unit is checked
and normalised, and the units are put in an order in which each comes after those that it depends
on.
-/

namespace AgenticDynamics.Execution.PlanExpansion

open Python

/-! ### Exceptions -/

/-- What is raised: a `ValueError` of the runner with its text, or an exception of this class that
the interpreter raises. -/
inductive PlanFault
  | value (text : String)
  | raised (typeName : String)

/-- The classes of a `ValueError`. -/
def valueErrors : List String := ["ValueError", "JSONDecodeError", "UnicodeDecodeError"]

def PlanFault.IsValueError : PlanFault → Prop
  | .value _         => True
  | .raised typeName => typeName ∈ valueErrors

/-- Something else than a `ValueError` is raised. -/
def Fatal {α : Type} (x : Except PlanFault α) : Prop := ∃ f, x = .error f ∧ ¬ f.IsValueError

section Fatal

variable {α β : Type}

@[simp] lemma not_fatal_ok {a : α} : ¬ Fatal (.ok a : Except PlanFault α) := by
  rintro ⟨f, h, -⟩
  cases h

@[simp] lemma not_fatal_value {text : String} :
    ¬ Fatal (.error (.value text) : Except PlanFault α) := by
  rintro ⟨f, h, hnot⟩
  cases h
  exact hnot trivial

@[simp] lemma fatal_raised {typeName : String} :
    Fatal (.error (.raised typeName) : Except PlanFault α) ↔ typeName ∉ valueErrors := by
  constructor
  · rintro ⟨f, h, hnot⟩
    cases h
    exact hnot
  · intro hnot
    exact ⟨_, rfl, hnot⟩

lemma fatal_error {f : PlanFault} :
    Fatal (.error f : Except PlanFault α) ↔ ¬ f.IsValueError := by
  cases f with
  | value text => exact iff_of_false not_fatal_value (not_not.mpr trivial)
  | raised typeName => exact fatal_raised

lemma fatal_bind {x : Except PlanFault α} {g : α → Except PlanFault β} :
    Fatal (x >>= g) ↔ Fatal x ∨ ∃ a, x = .ok a ∧ Fatal (g a) := by
  cases x with
  | error f =>
    constructor
    · rintro ⟨e, h, hnot⟩
      cases h
      exact .inl ⟨f, rfl, hnot⟩
    · rintro (⟨e, h, hnot⟩ | ⟨a, h, -⟩)
      · cases h
        exact ⟨f, rfl, hnot⟩
      · cases h
  | ok a => simp [bind, Except.bind]

end Fatal

/-! ### Units -/

structure PlanUnit where
  id : String
  goal : String
  files : List String
  tests : List String
  acceptance : String
  budgetUsd : PyFloat
  dependsOn : List String

def planUnitFieldLimit : ℕ := 2000

def truncatePlanField (text : String) : String :=
  if text.toList.length ≤ planUnitFieldLimit then text
  else String.ofList (text.toList.take planUnitFieldLimit) ++ "…[truncated]"

/-- `[A-Za-z0-9]`. -/
def isTokenStart (c : Char) : Bool := c.isAlphanum

/-- `_PLAN_UNIT_ID_RE` on a text that ends with no line break. -/
def isUnitId (text : String) : Bool :=
  match text.toList with
  | []     => false
  | c :: l => isTokenStart c && l.all fun c => isTokenStart c || c ∈ ['_', '.', '-']

section Units

variable (host : Runtime)

def quoted (text : String) : String := host.repr (.str text)

def planUnitStrList (value : Option Json) (label : String) : Except PlanFault (List String) :=
  let refused : Except PlanFault (List String) :=
    .error (.value (label ++ " must be a list of strings"))
  match value with
  | none              => .ok []
  | some .null        => .ok []
  | some (.arr items) =>
    match items.mapM fun item => (match item with | .str s => some s | _ => none) with
    | some texts => .ok ((texts.map strip).filter (· ≠ ""))
    | none       => refused
  | some _ => refused

/-- The unit's `id`. -/
def unitId (entry : Dict Json) (index : ℕ) : Except PlanFault String :=
  match Dict.get? "id" entry with
  | some (.str uid) =>
    if strip uid = "" then
      .error (.value ("plan unit #" ++ toString index ++ " has no non-empty string 'id'"))
    else if isUnitId (strip uid) then .ok (strip uid)
    else .error (.value ("plan unit id " ++ quoted host (strip uid) ++
      " is not a safe phase-name token (letters/digits first; then letters/digits/._-)"))
  | _ => .error (.value ("plan unit #" ++ toString index ++ " has no non-empty string 'id'"))

/-- The unit's `goal`. -/
def unitGoal (entry : Dict Json) (uid : String) : Except PlanFault String :=
  let refused : Except PlanFault String :=
    .error (.value ("plan unit " ++ quoted host uid ++ " has no non-empty string 'goal'"))
  match Dict.get? "goal" entry with
  | some (.str goal) => if strip goal = "" then refused else .ok (truncatePlanField (strip goal))
  | _                => refused

/-- The unit's `acceptance`. -/
def unitAcceptance (entry : Dict Json) (uid : String) : Except PlanFault String :=
  match (Dict.get? "acceptance" entry).getD (.str "") with
  | .null           => .ok ""
  | .str acceptance => .ok (truncatePlanField acceptance)
  | _ => .error (.value ("plan unit " ++ quoted host uid ++ " 'acceptance' must be a string"))

/-- The check of `budget_usd`; what is kept is a number that compares as not below zero. -/
def checkBudget (entry : Dict Json) (uid : String) : Except PlanFault Json :=
  let refused : Except PlanFault Json :=
    .error (.value ("plan unit " ++ quoted host uid ++ " 'budget_usd' must be a number >= 0"))
  match (Dict.get? "budget_usd" entry).getD (.float (.finite 0)) with
  | .int n   => if n < 0 then refused else .ok (.int n)
  | .float x => if PyFloat.lt x (.finite 0) then refused else .ok (.float x)
  | _        => refused

/-- `float(budget)` of a number. -/
def floatBudget (budget : Json) : Except PlanFault PyFloat :=
  match budget.toFloat host with
  | .ok x           => .ok x
  | .error typeName => .error (.raised typeName)

/-- What a list of an entry is called in a refusal. -/
def fieldLabel (uid field : String) : String :=
  "plan unit " ++ quoted host uid ++ " '" ++ field ++ "'"

def normalizePlanUnit (entry : Dict Json) (index : ℕ) : Except PlanFault PlanUnit := do
  let id ← unitId host entry index
  let goal ← unitGoal host entry id
  let acceptance ← unitAcceptance host entry id
  let budget ← checkBudget host entry id
  let files ← planUnitStrList (Dict.get? "files" entry) (fieldLabel host id "files")
  let tests ← planUnitStrList (Dict.get? "tests" entry) (fieldLabel host id "tests")
  let budgetUsd ← floatBudget host budget
  let dependsOn ← planUnitStrList (Dict.get? "depends_on" entry) (fieldLabel host id "depends_on")
  return { id, goal, files := files.map truncatePlanField, tests, acceptance, budgetUsd, dependsOn }

/-! ### The artifact -/

inductive PlanArtifact
  | missing
  | unreadable (detail : String)
  | undecodable (detail : String)
  | text (contents : String)

/-- The loop over the entries, with the units before them. -/
def loadEntries : ℕ → List PlanUnit → List Json → Except PlanFault (List PlanUnit)
  | _,     units, []            => .ok units
  | index, units, entry :: rest => do
    match entry with
    | .obj fields =>
      let unit ← normalizePlanUnit host fields index
      if unit.id ∈ units.map PlanUnit.id then
        .error (.value ("duplicate plan unit id " ++ quoted host unit.id))
      else loadEntries (index + 1) (units ++ [unit]) rest
    | _ => .error (.value ("plan unit #" ++ toString index ++ " must be a mapping"))

/-- The dependencies of a unit that are no units. -/
def unknownDeps (units : List PlanUnit) (unit : PlanUnit) : List String :=
  unit.dependsOn.filter (· ∉ units.map PlanUnit.id)

def checkKnown (units : List PlanUnit) : Except PlanFault (List PlanUnit) :=
  match units.find? fun unit => unknownDeps units unit ≠ [] with
  | none      => .ok units
  | some unit =>
    .error (.value ("plan unit " ++ quoted host unit.id ++ " depends_on unknown unit(s): " ++
      host.repr (.arr ((unknownDeps units unit).map .str))))

def readPlan (planRef : String) (artifact : PlanArtifact) : Except PlanFault Json :=
  match artifact with
  | .missing            => .error (.value ("plan units artifact not found: " ++ planRef))
  | .unreadable detail  =>
    .error (.value ("plan units artifact unreadable: " ++ planRef ++ ": " ++ detail))
  | .undecodable _      => .error (.raised "UnicodeDecodeError")
  | .text contents      =>
    match host.loads contents with
    | .ok raw                => .ok raw
    | .error (typeName, detail) =>
      if typeName = "JSONDecodeError" then
        .error (.value ("plan units artifact is not valid JSON: " ++ planRef ++ ": " ++ detail))
      else .error (.raised typeName)

def planEntries (raw : Json) : Option (List Json) :=
  match raw with
  | .obj fields =>
    match Dict.get? "units" fields with
    | some (.arr (entry :: entries)) => some (entry :: entries)
    | _                              => none
  | _ => none

def loadPlanUnits (planRef : String) (artifact : PlanArtifact) :
    Except PlanFault (List PlanUnit) := do
  let raw ← readPlan host planRef artifact
  match planEntries raw with
  | some entries => checkKnown host (← loadEntries host 1 [] entries)
  | none         =>
    .error (.value ("plan units artifact " ++ planRef ++
      " must be an object with a non-empty 'units' list"))

end Units

/-! ### The order -/

/-- `by_id[uid]`. -/
def unitOf (units : List PlanUnit) (uid : String) : Option PlanUnit :=
  units.find? fun unit => unit.id = uid

def depsOf (units : List PlanUnit) (uid : String) : List String :=
  ((unitOf units uid).map PlanUnit.dependsOn).getD []

def orderPlanUnits (units : List PlanUnit) : Except PlanFault (List PlanUnit) :=
  let done := (Toposort.kahn (units.map PlanUnit.id) (depsOf units)).1
  let ordered := done.filterMap (unitOf units)
  if ordered.length ≠ units.length then .error (.value "plan units contain a dependency cycle")
  else .ok ordered

section Facts

variable {host : Runtime} {entry : Dict Json} {index : ℕ} {unit : PlanUnit}
  {units loaded ordered : List PlanUnit} {entries : List Json}

/-! ### What a normalised unit is -/

/-- A unit as it is kept: its id is a token, its budget does not compare as below zero. -/
structure Normal (unit : PlanUnit) : Prop where
  token : isUnitId unit.id = true
  budget : PyFloat.lt unit.budgetUsd (.finite 0) = false

lemma unitId_token {uid : String} (h : unitId host entry index = .ok uid) :
    isUnitId uid = true := by
  simp only [unitId] at h
  split at h
  · split_ifs at h with hempty htoken
    cases h
    exact htoken
  · cases h

lemma floatOfInt_nonneg {n : ℤ} {q : ℚ} (hn : 0 ≤ n) (h : floatOfInt n = some q) : 0 ≤ q := by
  rw [floatOfInt] at h
  split_ifs at h
  cases h
  have hmax : (0 : ℚ) ≤ floatMax := by
    rw [floatMax, sub_nonneg]
    exact pow_le_pow_right₀ (by norm_num) (by norm_num)
  exact le_max_of_le_right (le_min hmax (by exact_mod_cast hn))

lemma budget_nonneg {uid : String} {budget : Json} {x : PyFloat}
    (hcheck : checkBudget host entry uid = .ok budget) (hfloat : floatBudget host budget = .ok x) :
    PyFloat.lt x (.finite 0) = false := by
  simp only [checkBudget] at hcheck
  split at hcheck
  · split_ifs at hcheck with hneg
    cases hcheck
    rename_i n _
    rw [floatBudget, Json.toFloat] at hfloat
    cases hn : floatOfInt n with
    | none => simp [hn] at hfloat
    | some q =>
      simp only [hn, Except.ok.injEq] at hfloat
      subst hfloat
      simpa [PyFloat.lt] using floatOfInt_nonneg (not_lt.mp hneg) hn
  · split_ifs at hcheck with hneg
    cases hcheck
    cases hfloat
    simpa using hneg
  · cases hcheck

lemma normalizePlanUnit_normal (h : normalizePlanUnit host entry index = .ok unit) :
    Normal unit := by
  simp only [normalizePlanUnit, bind_eq_ok, pure, Except.pure, Except.ok.injEq] at h
  obtain ⟨id, hid, goal, -, acceptance, -, budget, hbudget, files, -, tests, -, x, hx, deps, -,
    rfl⟩ := h
  exact ⟨unitId_token hid, budget_nonneg hbudget hx⟩

/-! ### What raises -/

/-- The budget of an entry is an integer beyond the range of a float. -/
def Oversized (entry : Dict Json) : Prop :=
  ∃ n, Dict.get? "budget_usd" entry = some (.int n) ∧ floatLimit ≤ n

/-- The checks of an entry that come before the conversion of its budget. -/
def ReachesBudget (host : Runtime) (entry : Dict Json) (index : ℕ) : Prop :=
  ∃ id goal acceptance files tests, unitId host entry index = .ok id ∧
    unitGoal host entry id = .ok goal ∧ unitAcceptance host entry id = .ok acceptance ∧
    planUnitStrList (Dict.get? "files" entry) (fieldLabel host id "files") = .ok files ∧
    planUnitStrList (Dict.get? "tests" entry) (fieldLabel host id "tests") = .ok tests

lemma not_fatal_planUnitStrList {value : Option Json} {label : String} :
    ¬ Fatal (planUnitStrList value label) := by
  simp only [planUnitStrList]
  split
  · simp
  · simp
  · split <;> simp
  · simp

lemma not_fatal_unitId : ¬ Fatal (unitId host entry index) := by
  simp only [unitId]
  split
  · split_ifs <;> simp
  · simp

lemma not_fatal_unitGoal {uid : String} : ¬ Fatal (unitGoal host entry uid) := by
  simp only [unitGoal]
  split
  · split_ifs <;> simp
  · simp

lemma not_fatal_unitAcceptance {uid : String} : ¬ Fatal (unitAcceptance host entry uid) := by
  simp only [unitAcceptance]
  split <;> simp

lemma not_fatal_checkBudget {uid : String} : ¬ Fatal (checkBudget host entry uid) := by
  simp only [checkBudget]
  split
  · split_ifs <;> simp
  · split_ifs <;> simp
  · simp

lemma fatal_floatBudget_int {n : ℤ} :
    Fatal (floatBudget host (.int n)) ↔ floatLimit ≤ |(n : ℚ)| := by
  rw [floatBudget, Json.toFloat, floatOfInt]
  split_ifs with hlimit
  · simp [hlimit, valueErrors]
  · simp [hlimit]

lemma fatal_budget_iff {uid : String} :
    (∃ budget, checkBudget host entry uid = .ok budget ∧ Fatal (floatBudget host budget)) ↔
      Oversized entry := by
  have hlimit : (0 : ℚ) ≤ floatLimit := by
    rw [floatLimit, sub_nonneg]
    exact pow_le_pow_right₀ (by norm_num) (by norm_num)
  constructor
  · rintro ⟨budget, hcheck, hfatal⟩
    simp only [checkBudget] at hcheck
    split at hcheck
    · rename_i n hbudget
      split_ifs at hcheck with hneg
      cases hcheck
      rw [fatal_floatBudget_int, abs_of_nonneg (by exact_mod_cast not_lt.mp hneg)] at hfatal
      refine ⟨n, ?_, hfatal⟩
      cases hget : Dict.get? "budget_usd" entry with
      | none => simp [hget] at hbudget
      | some value => simpa [hget] using hbudget
    · split_ifs at hcheck
      cases hcheck
      exact absurd hfatal (by simp [floatBudget, Json.toFloat])
    · cases hcheck
  · rintro ⟨n, hget, hn⟩
    have hnonneg : (0 : ℚ) ≤ n := hlimit.trans hn
    refine ⟨.int n, ?_, by rwa [fatal_floatBudget_int, abs_of_nonneg hnonneg]⟩
    simp only [checkBudget, hget, Option.getD_some]
    exact if_neg (not_lt.mpr (by exact_mod_cast hnonneg))

lemma fatal_normalizePlanUnit_iff :
    Fatal (normalizePlanUnit host entry index) ↔
      ReachesBudget host entry index ∧ Oversized entry := by
  simp only [normalizePlanUnit, fatal_bind, not_fatal_unitId, not_fatal_unitGoal,
    not_fatal_unitAcceptance, not_fatal_checkBudget, not_fatal_planUnitStrList, false_or, pure,
    Except.pure, not_fatal_ok, and_false, exists_false, or_false]
  constructor
  · rintro ⟨id, hid, goal, hgoal, acceptance, hacceptance, budget, hbudget, files, hfiles, tests,
      htests, hfatal⟩
    exact ⟨⟨id, goal, acceptance, files, tests, hid, hgoal, hacceptance, hfiles, htests⟩,
      fatal_budget_iff.mp ⟨budget, hbudget, hfatal⟩⟩
  · rintro ⟨⟨id, goal, acceptance, files, tests, hid, hgoal, hacceptance, hfiles, htests⟩, hover⟩
    obtain ⟨budget, hbudget, hfatal⟩ := (@fatal_budget_iff host entry id).mpr hover
    exact ⟨id, hid, goal, hgoal, acceptance, hacceptance, budget, hbudget, files, hfiles, tests,
      htests, hfatal⟩

/-- The loop over the entries reaches an oversized budget. -/
def Overflows (host : Runtime) (index : ℕ) (units : List PlanUnit) (entries : List Json) : Prop :=
  ∃ before fields after, entries = before ++ .obj fields :: after ∧
    (∃ loaded, loadEntries host index units before = .ok loaded) ∧
    ReachesBudget host fields (index + before.length) ∧ Oversized fields

lemma loadEntries_obj {fields : Dict Json} {rest : List Json} :
    loadEntries host index units (.obj fields :: rest) = normalizePlanUnit host fields index >>=
      fun unit => if unit.id ∈ units.map PlanUnit.id then
          .error (.value ("duplicate plan unit id " ++ quoted host unit.id))
        else loadEntries host (index + 1) (units ++ [unit]) rest := rfl

lemma overflows_obj {fields : Dict Json} {rest : List Json} :
    Overflows host index units (.obj fields :: rest) ↔
      ReachesBudget host fields index ∧ Oversized fields ∨
      ∃ unit, normalizePlanUnit host fields index = .ok unit ∧ unit.id ∉ units.map PlanUnit.id ∧
        Overflows host (index + 1) (units ++ [unit]) rest := by
  constructor
  · rintro ⟨before, fields', after, hsplit, ⟨loaded, hloaded⟩, hreaches, hover⟩
    cases before with
    | nil =>
      obtain ⟨hfields, -⟩ := List.cons.inj hsplit
      cases hfields
      exact .inl ⟨hreaches, hover⟩
    | cons first before =>
      obtain ⟨rfl, hrest⟩ := List.cons.inj hsplit
      rw [loadEntries_obj, bind_eq_ok] at hloaded
      obtain ⟨unit, hunit, hloaded⟩ := hloaded
      split_ifs at hloaded with hdup
      refine .inr ⟨unit, hunit, hdup, before, fields', after, hrest, ⟨loaded, hloaded⟩, ?_, hover⟩
      rwa [List.length_cons, ← Nat.add_assoc, Nat.add_right_comm] at hreaches
  · rintro (⟨hreaches, hover⟩ | ⟨unit, hunit, hdup, before, fields', after, hrest,
      ⟨loaded, hloaded⟩, hreaches, hover⟩)
    · exact ⟨[], fields, rest, rfl, ⟨units, rfl⟩, hreaches, hover⟩
    · refine ⟨.obj fields :: before, fields', after, by rw [hrest]; rfl, ⟨loaded, ?_⟩, ?_, hover⟩
      · rw [loadEntries_obj, hunit]
        exact (if_neg hdup).trans hloaded
      · rwa [List.length_cons, ← Nat.add_assoc, Nat.add_right_comm]

lemma fatal_loadEntries_iff :
    Fatal (loadEntries host index units entries) ↔ Overflows host index units entries := by
  induction entries generalizing index units with
  | nil =>
    simp only [loadEntries, not_fatal_ok, false_iff]
    rintro ⟨before, fields, after, hsplit, -⟩
    simp at hsplit
  | cons entry rest ih =>
    cases entry with
    | obj fields =>
      rw [loadEntries_obj, fatal_bind, fatal_normalizePlanUnit_iff, overflows_obj]
      refine or_congr_right (exists_congr fun unit => and_congr_right fun _ => ?_)
      by_cases hdup : unit.id ∈ units.map PlanUnit.id
      · rw [if_pos hdup]
        exact iff_of_false not_fatal_value fun h => h.1 hdup
      · rw [if_neg hdup, ih, and_iff_right hdup]
    | _ =>
      refine iff_of_false not_fatal_value ?_
      rintro ⟨before, fields, after, hsplit, ⟨loaded, hloaded⟩, -⟩
      cases before with
      | nil => cases (List.cons.inj hsplit).1
      | cons first before =>
        obtain ⟨rfl, -⟩ := List.cons.inj hsplit
        cases hloaded

/-! ### What is loaded -/

/-- Units that are loaded: normal ones, under distinct ids. -/
structure Loaded (units : List PlanUnit) : Prop where
  ids : (units.map PlanUnit.id).Nodup
  normal : ∀ unit ∈ units, Normal unit

lemma loaded_nil : Loaded [] := ⟨by simp, by simp⟩

lemma loadEntries_loaded (hunits : Loaded units)
    (h : loadEntries host index units entries = .ok loaded) : Loaded loaded := by
  induction entries generalizing index units with
  | nil =>
    cases h
    exact hunits
  | cons entry rest ih =>
    cases entry with
    | obj fields =>
      rw [loadEntries_obj, bind_eq_ok] at h
      obtain ⟨unit, hunit, h⟩ := h
      split_ifs at h with hdup
      refine ih ⟨?_, ?_⟩ h
      · rw [List.map_append, List.map_singleton, List.nodup_append]
        refine ⟨hunits.ids, List.nodup_singleton _, fun a ha b hb hab => ?_⟩
        rw [List.mem_singleton] at hb
        exact hdup (hb ▸ hab ▸ ha)
      · intro other hother
        rcases List.mem_append.mp hother with hold | hnew
        · exact hunits.normal other hold
        · rw [List.mem_singleton.mp hnew]
          exact normalizePlanUnit_normal hunit
    | _ => cases h

lemma loadEntries_ne_nil (hne : entries ≠ [])
    (h : loadEntries host index units entries = .ok loaded) : loaded ≠ [] := by
  have hlength {entries : List Json} {index : ℕ} {units : List PlanUnit}
      (h : loadEntries host index units entries = .ok loaded) :
      loaded.length = units.length + entries.length := by
    induction entries generalizing index units with
    | nil =>
      cases h
      simp
    | cons entry rest ih =>
      cases entry with
      | obj fields =>
        rw [loadEntries_obj, bind_eq_ok] at h
        obtain ⟨unit, -, h⟩ := h
        split_ifs at h
        rw [ih h, List.length_append, List.length_singleton, List.length_cons]
        omega
      | _ => cases h
  rintro rfl
  have := hlength h
  have := List.length_pos_iff.mpr hne
  simp at *
  omega

/-- Every dependency of the units is one of them. -/
def Known (units : List PlanUnit) : Prop :=
  ∀ unit ∈ units, ∀ dep ∈ unit.dependsOn, dep ∈ units.map PlanUnit.id

lemma checkKnown_eq_ok : checkKnown host units = .ok loaded ↔ loaded = units ∧ Known units := by
  have hknown : Known units ↔
      (units.find? fun unit => unknownDeps units unit ≠ []) = none := by
    simp [Known, unknownDeps]
  rw [checkKnown, hknown]
  cases units.find? fun unit => unknownDeps units unit ≠ [] with
  | none => simp [eq_comm]
  | some unit => simp

lemma not_fatal_checkKnown : ¬ Fatal (checkKnown host units) := by
  rw [checkKnown]
  split <;> simp

/-! ### The order of the units -/

lemma unitOf_eq_some (hids : (units.map PlanUnit.id).Nodup) {uid : String} :
    unitOf units uid = some unit ↔ unit ∈ units ∧ unit.id = uid := by
  constructor
  · intro h
    exact ⟨List.mem_of_find?_eq_some h, by simpa using List.find?_some h⟩
  · rintro ⟨hmem, rfl⟩
    cases hfind : unitOf units unit.id with
    | none =>
      have hnone := List.find?_eq_none.mp hfind unit hmem
      simp at hnone
    | some other =>
      have hid : other.id = unit.id := by simpa using List.find?_some hfind
      rw [List.inj_on_of_nodup_map hids (List.mem_of_find?_eq_some hfind) hmem hid]

lemma map_filterMap_unitOf (hids : (units.map PlanUnit.id).Nodup) {done : List String}
    (hdone : done ⊆ units.map PlanUnit.id) :
    (done.filterMap (unitOf units)).map PlanUnit.id = done := by
  induction done with
  | nil => rfl
  | cons uid done ih =>
    obtain ⟨huid, hrest⟩ := List.cons_subset.mp hdone
    obtain ⟨unit, hmem, hid⟩ := List.mem_map.mp huid
    rw [List.filterMap_cons_some ((unitOf_eq_some hids).mpr ⟨hmem, hid⟩), List.map_cons, ih hrest,
      hid]

theorem orderPlanUnits_spec (hids : (units.map PlanUnit.id).Nodup)
    (h : orderPlanUnits units = .ok ordered) :
    ordered.Perm units ∧ ∀ before unit after, ordered = before ++ unit :: after →
      ∀ dep ∈ unit.dependsOn, ∃ earlier ∈ before, earlier.id = dep := by
  obtain ⟨-, hnodup, hsubset, hsorted⟩ :=
    @Toposort.kahn_spec String _ (units.map PlanUnit.id) (depsOf units) hids
  have hmap := map_filterMap_unitOf hids hsubset
  simp only [orderPlanUnits, ne_eq] at h
  split_ifs at h with hlength
  cases h
  generalize (Toposort.kahn (units.map PlanUnit.id) (depsOf units)).1 = done at *
  have hmem {unit : PlanUnit} (hin : unit ∈ done.filterMap (unitOf units)) : unit ∈ units := by
    obtain ⟨uid, -, huid⟩ := List.mem_filterMap.mp hin
    exact ((unitOf_eq_some hids).mp huid).1
  have hdistinct : (done.filterMap (unitOf units)).Nodup :=
    List.Nodup.of_map PlanUnit.id (by rw [hmap]; exact hnodup)
  refine ⟨(List.subperm_of_subset hdistinct fun _ hin => hmem hin).perm_of_length_le
    hlength.ge, ?_⟩
  intro before unit after hsplit dep hdep
  have hunit : unit ∈ units := hmem (by rw [hsplit]; simp)
  rw [hsplit, List.map_append, List.map_cons] at hmap
  have hdeps : depsOf units unit.id = unit.dependsOn := by
    rw [depsOf, (unitOf_eq_some hids).mpr ⟨hunit, rfl⟩]
    rfl
  exact List.mem_map.mp (hsorted _ _ _ hmap.symm dep (hdeps ▸ hdep))

lemma not_fatal_orderPlanUnits : ¬ Fatal (orderPlanUnits units) := by
  simp only [orderPlanUnits]
  split_ifs <;> simp

lemma planEntries_ne_nil {raw : Json} (h : planEntries raw = some entries) : entries ≠ [] := by
  cases raw with
  | obj fields =>
    simp only [planEntries] at h
    split at h
    · cases h
      exact List.cons_ne_nil _ _
    · cases h
  | _ => cases h

lemma loadPlanUnits_eq_ok {planRef : String} {artifact : PlanArtifact}
    (h : loadPlanUnits host planRef artifact = .ok units) :
    Loaded units ∧ Known units ∧ units ≠ [] := by
  simp only [loadPlanUnits, bind_eq_ok] at h
  obtain ⟨raw, -, h⟩ := h
  cases hentries : planEntries raw with
  | none => simp [hentries] at h
  | some entries =>
    simp only [hentries, bind_eq_ok] at h
    obtain ⟨loaded, hloaded, hknown⟩ := h
    obtain ⟨rfl, hknown⟩ := checkKnown_eq_ok.mp hknown
    exact ⟨loadEntries_loaded loaded_nil hloaded, hknown,
      loadEntries_ne_nil (planEntries_ne_nil hentries) hloaded⟩

end Facts

end AgenticDynamics.Execution.PlanExpansion
