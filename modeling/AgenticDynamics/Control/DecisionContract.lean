import AgenticDynamics.Library.Lines

/-!
# The decision contract

An approval artifact is read line by line into a decision, and a decision is bound to the act it
authorizes by comparing its fields with what the act expects.
-/

namespace AgenticDynamics.Control

open Python

/-! ### The vocabulary -/

/-- `PLACEHOLDER_OPERATORS` of the contract. -/
def contractPlaceholders : List String :=
  ["", "operator", "operator-test", "operator_test", "your name", "your-name", "your signature",
    "sign here", "sign-here", "todo", "tbd", "n/a", "na", "xxx", "???", "<name>", "placeholder",
    "name", "test", "aio"]

inductive DecisionField
  | operator
  | date
  | candidateSha
  | runId
  | gateId
  | spec
  | phase
  | tree
  | purpose
  deriving DecidableEq, Repr

def DecisionField.aliases : DecisionField → List String
  | operator     => ["operator", "signed-by-operator", "signed_by_operator", "signed by operator"]
  | date         => ["date", "signed-date", "signed_date", "signed on", "signed", "signed-at"]
  | candidateSha => ["candidate", "candidate-sha", "candidate_sha", "sha"]
  | runId        => ["run", "run-id", "run_id"]
  | gateId       => ["gate", "gate-id", "gate_id"]
  | spec         => ["spec", "workflow", "workflow-spec"]
  | phase        => ["phase"]
  | tree         => ["tree", "tree-hash", "tree_hash"]
  | purpose      => ["purpose"]

/-- The fields in the order of `_ALIASES`. -/
def decisionFields : List DecisionField :=
  [.operator, .date, .candidateSha, .runId, .gateId, .spec, .phase, .tree, .purpose]

def fieldByKey (key : String) : Option DecisionField :=
  decisionFields.find? fun field => key ∈ field.aliases

/-- `ApprovalDecision`; of the raw pairs it keeps whether a purpose was declared. -/
structure ApprovalDecision where
  purpose : String := "checkpoint"
  operator : String := ""
  date : String := ""
  candidateSha : String := ""
  runId : String := ""
  gateId : String := ""
  spec : String := ""
  phase : String := ""
  tree : String := ""
  declaresPurpose : Bool := false
  deriving DecidableEq

def ApprovalDecision.value (d : ApprovalDecision) : DecisionField → String
  | .operator     => d.operator
  | .date         => d.date
  | .candidateSha => d.candidateSha
  | .runId        => d.runId
  | .gateId       => d.gateId
  | .spec         => d.spec
  | .phase        => d.phase
  | .tree         => d.tree
  | .purpose      => d.purpose

/-! ### Reading -/

/-- The characters `_decorated` strips off a value. -/
def decorations : List Char := ['*', '\x60', '\x27', '\x22', '_', ' ']

def decorated (value : String) : String := strip (stripChars decorations (strip value))

section Reading

variable (host : Host)

def normalizeKey (rawKey : String) : String :=
  " ".intercalate
    (words (host.lower (strip (stripChars ['*', '\x60', '#', '_', ' '] (strip rawKey)))))

abbrev Found := DecisionField → Option String

/-- The first value found is kept, and an empty one is none. -/
def Found.keep (field : DecisionField) (value : String) (found : Found) : Found :=
  if value ≠ "" ∧ found field = none then Function.update found field (some value) else found

/-- `found["date"] = date`, unless a date was found. -/
def Found.signedOn (date : Option String) (found : Found) : Found :=
  match date with
  | some d => if (found .date).getD "" = "" then Function.update found .date (some d) else found
  | none   => found

/-- `tok in text`. -/
def containsText (tok text : String) : Bool := text.toList.tails.any tok.toList.isPrefixOf

/-- The value of an operator's line, once its date is taken out. -/
def signature (value : String) : String :=
  strip (stripChars [' ', ',', ';'] (decorated value))

/-- What a line says: nothing, a bare signature with its date, a field, or an operator, with the date
the name was followed by. -/
inductive LineContent
  | nothing
  | dated (date : Option String)
  | field (name : DecisionField) (value : String)
  | signer (date : Option String) (name : String)

def lineContent (stripped : String) : LineContent :=
  if stripped = "" ∨ startsWith stripped "#" then .nothing
  else if ':' ∉ stripped.toList then
    if containsText "signed" (host.lower stripped) ∨ containsText "date" (host.lower stripped) then
      .dated (embeddedDate stripped)
    else .nothing
  else
    let (rawKey, rawValue) := Python.partition ':' stripped
    let value := decorated rawValue
    match fieldByKey (normalizeKey host rawKey) with
    | none           => .nothing
    | some .date     => .field .date ((embeddedDate value).getD value)
    | some .operator =>
      match embeddedDate value with
      | some d => .signer (some d) (signature (remove d value))
      -- an empty value has an empty signature, which is not kept
      | none   => .signer none (signature value)
    | some name      => .field name value

/-- The characters that may stand before a field's name. -/
def bullets : List Char := ['-', '*', '!', '>', ' ']

def Found.add (found : Found) : LineContent → Found
  | .nothing          => found
  | .dated date       => found.signedOn date
  | .field name value => found.keep name value
  | .signer date name => (found.signedOn date).keep .operator name

def readLine (found : Found) (line : String) : Found :=
  found.add (lineContent host (strip (lstripChars bullets (strip line))))

def parseApprovalDecision (text : String) : ApprovalDecision :=
  let found := (splitlines text).foldl (readLine host) fun _ => none
  { purpose := (found .purpose).getD "checkpoint"
    operator := (found .operator).getD ""
    date := (found .date).getD ""
    candidateSha := (found .candidateSha).getD ""
    runId := (found .runId).getD ""
    gateId := (found .gateId).getD ""
    spec := (found .spec).getD ""
    phase := (found .phase).getD ""
    tree := (found .tree).getD ""
    declaresPurpose := (found .purpose).isSome }

/-! ### Validation -/

def operatorIsPlaceholder (operator : String) : Bool :=
  let stripped := strip operator
  " ".intercalate (words (host.lower stripped)) ∈ contractPlaceholders ∨ stripped.length < 2 ∨
    (startsWith stripped "<" ∧ stripped.toList.getLast? = some '>')

/-- `text.replace("Z", "+00:00")`. -/
def replaceZ (text : String) : String :=
  String.ofList (text.toList.flatMap fun c => if c = 'Z' then "+00:00".toList else [c])

def dateIsValid (value : String) : Bool :=
  value ≠ "" ∧ (host.fromisoformat (replaceZ value)).isSome

def shaMatches (expected named : String) : Bool :=
  strip expected ≠ "" ∧ strip named ≠ "" ∧
    (startsWith (strip expected) (strip named) ∨ startsWith (strip named) (strip expected))

/-- What a caller of `validate_decision` expects; what it cannot prove is left out. -/
structure Expectations where
  purpose : Option String := none
  spec : Option String := none
  phase : Option String := none
  candidateSha : Option String := none
  tree : Option String := none
  runId : Option String := none
  gateId : Option String := none

/-- `expected is not None and found != expected`. -/
def differs (expected : Option String) (found : String) : Bool :=
  match expected with
  | some value => found ≠ value
  | none       => false

/-- `validate_decision`: the names of the failed checks. -/
def validateDecision (d : ApprovalDecision) (e : Expectations) : List String :=
  (if differs e.purpose d.purpose ∧ d.declaresPurpose then ["purpose"] else []) ++
  (if differs e.spec d.spec then ["spec"] else []) ++
  (if differs e.phase d.phase then ["phase"] else []) ++
  (if e.candidateSha.any fun expected => !shaMatches expected d.candidateSha then
    ["candidate_sha"] else []) ++
  (if differs e.tree d.tree then ["tree"] else []) ++
  (if differs e.runId d.runId then ["run_id"] else []) ++
  (if differs e.gateId d.gateId then ["gate_id"] else []) ++
  (if operatorIsPlaceholder host d.operator then ["operator"] else []) ++
  (if dateIsValid host d.date then [] else ["date"])

end Reading

/-! ### What a line does -/

section Lines

variable {host : Host} {found : Found} {f : DecisionField} {line : String}

lemma keep_apply (name : DecisionField) (value : String) :
    found.keep name value f = (found f).or (Found.keep name value (fun _ => none) f) := by
  rw [Found.keep, Found.keep]
  by_cases hvalue : value = ""
  · simp [hvalue]
  · by_cases hf : f = name
    · subst hf
      cases hfound : found f <;> simp [hvalue, hfound]
    · cases found name <;> simp [hvalue, Function.update_of_ne hf]

lemma signedOn_apply (hf : f ≠ .date) (date : Option String) : found.signedOn date f = found f := by
  cases date with
  | none => rfl
  | some d =>
    simp only [Found.signedOn]
    split_ifs
    · exact Function.update_of_ne hf _ _
    · rfl

lemma readLine_apply (hf : f ≠ .date) (found : Found) (line : String) :
    readLine host found line f = (found f).or (readLine host (fun _ => none) line f) := by
  rw [readLine, readLine]
  generalize lineContent host (strip (lstripChars bullets (strip line))) = content
  cases content with
  | nothing => simp [Found.add]
  | dated date =>
    rw [Found.add, Found.add, signedOn_apply hf, signedOn_apply hf]
    simp
  | field name value => exact keep_apply name value
  | signer date name =>
    rw [Found.add, Found.add, keep_apply, signedOn_apply hf]
    conv_rhs => rw [keep_apply, signedOn_apply hf]
    simp

lemma foldl_readLine_apply (hf : f ≠ .date) (found : Found) (lines : List String) :
    lines.foldl (readLine host) found f =
      (found f).or (lines.findSome? fun line => readLine host (fun _ => none) line f) := by
  induction lines generalizing found with
  | nil => simp
  | cons line lines ih =>
    rw [List.foldl_cons, ih, readLine_apply hf, List.findSome?_cons, Option.or_assoc]
    cases readLine host (fun _ => none) line f <;> simp

lemma readLine_date {d : String} (hfound : found .date = some d) (hne : d ≠ "") (line : String) :
    readLine host found line .date = some d := by
  have hkeep : ∀ name value, found.keep name value .date = some d := by
    intro name value
    rw [keep_apply, hfound]
    rfl
  have hsigned : ∀ date, found.signedOn date = found := by
    intro date
    cases date with
    | none => rfl
    | some d' =>
      simp only [Found.signedOn, hfound, Option.getD_some]
      rw [if_neg hne]
  rw [readLine]
  generalize lineContent host (strip (lstripChars bullets (strip line))) = content
  cases content with
  | nothing => exact hfound
  | dated date => exact (congrFun (hsigned date) _).trans hfound
  | field name value => exact hkeep name value
  | signer date name =>
    rw [Found.add, hsigned]
    exact hkeep _ _

lemma foldl_readLine_date {d : String} (hfound : found .date = some d) (hne : d ≠ "")
    (lines : List String) : lines.foldl (readLine host) found .date = some d := by
  induction lines generalizing found with
  | nil => exact hfound
  | cons line lines ih =>
    rw [List.foldl_cons]
    exact ih (readLine_date hfound hne line)

/-! ### Values are parts of lines -/

/-- Every character of the value is one of the text. -/
def Within (value text : String) : Prop := ∀ c ∈ value.toList, c ∈ text.toList

lemma Within.trans {a b c : String} (hab : Within a b) (hbc : Within b c) : Within a c :=
  fun x hx => hbc x (hab x hx)

lemma within_of_sublist {a b : String} (h : a.toList.Sublist b.toList) : Within a b :=
  fun _ hc => h.subset hc

lemma within_strip (text : String) : Within (strip text) text :=
  within_of_sublist (by rw [toList_strip]; exact trim_sublist)

lemma within_stripChars (chars : List Char) (text : String) : Within (stripChars chars text) text :=
  within_of_sublist (by rw [toList_stripChars]; exact trim_sublist)

lemma within_lstripChars (chars : List Char) (text : String) :
    Within (lstripChars chars text) text :=
  within_of_sublist (by rw [lstripChars, String.toList_ofList]; exact List.dropWhile_sublist _)

lemma within_decorated (text : String) : Within (decorated text) text :=
  (within_strip _).trans ((within_stripChars _ _).trans (within_strip _))

lemma within_signature (text : String) : Within (signature text) text :=
  (within_strip _).trans ((within_stripChars _ _).trans (within_decorated _))

lemma within_remove (old text : String) : Within (remove old text) text :=
  within_of_sublist (by rw [remove, String.toList_ofList]; exact removeFrom_sublist _ _ _)

lemma within_embeddedDate {text d : String} (h : embeddedDate text = some d) : Within d text := by
  obtain ⟨found, hfound, rfl⟩ := Option.map_eq_some_iff.mp h
  refine within_of_sublist ?_
  rw [String.toList_ofList]
  exact (searchDate_part hfound).1.sublist

lemma within_partition (sep : Char) (text : String) : Within (Python.partition sep text).2 text := by
  refine within_of_sublist ?_
  rw [Python.partition, String.toList_ofList]
  exact (List.drop_sublist 1 _).trans (List.dropWhile_sublist _)

lemma oneLine_of_within {value text : String} (h : OneLine text) (hwithin : Within value text) :
    OneLine value := fun c hc => h c (hwithin c hc)

lemma within_stripped (line : String) : Within (strip (lstripChars bullets (strip line))) line :=
  (within_strip _).trans ((within_lstripChars _ _).trans (within_strip _))

/-- What is said in a line has no line break. -/
inductive LineContent.InLine : LineContent → Prop
  | nothing : InLine .nothing
  | dated {date : Option String} (hdate : ∀ d, date = some d → OneLine d) : InLine (.dated date)
  | field {name : DecisionField} {value : String} (hvalue : OneLine value) :
      InLine (.field name value)
  | signer {date : Option String} {name : String} (hdate : ∀ d, date = some d → OneLine d)
      (hname : OneLine name) : InLine (.signer date name)

lemma lineContent_inLine {stripped : String} (h : OneLine stripped) :
    (lineContent host stripped).InLine := by
  rw [lineContent]
  dsimp only
  have hvalue : OneLine (decorated (Python.partition ':' stripped).2) :=
    oneLine_of_within h ((within_decorated _).trans (within_partition _ _))
  by_cases hskip : stripped = "" ∨ startsWith stripped "#" = true
  · rw [if_pos hskip]
    exact .nothing
  rw [if_neg hskip]
  by_cases hcolon : ':' ∈ stripped.toList
  · rw [if_neg (not_not.mpr hcolon)]
    split
    · exact .nothing
    · refine .field ?_
      cases hdate : embeddedDate (decorated (Python.partition ':' stripped).2) with
      | none => exact hvalue
      | some d => exact oneLine_of_within hvalue (within_embeddedDate hdate)
    · split
      · rename_i d hd
        refine .signer (fun d' hd' => ?_) ?_
        · cases hd'
          exact oneLine_of_within hvalue (within_embeddedDate hd)
        · exact oneLine_of_within hvalue ((within_signature _).trans (within_remove _ _))
      · refine .signer (fun d hd => ?_) (oneLine_of_within hvalue (within_signature _))
        cases hd
    · exact .field hvalue
  · rw [if_pos hcolon]
    split_ifs
    · exact .dated fun d hd => oneLine_of_within h (within_embeddedDate hd)
    · exact .nothing

/-- Everything found so far is free of line breaks. -/
def Found.InLines (found : Found) : Prop := ∀ f value, found f = some value → OneLine value

lemma Found.InLines.update (hfound : found.InLines) {name : DecisionField} {value : String}
    (hvalue : OneLine value) : Found.InLines (Function.update found name (some value)) := by
  intro f v h
  rw [Function.update_apply] at h
  split_ifs at h
  · cases h
    exact hvalue
  · exact hfound f v h

lemma Found.InLines.keep (hfound : found.InLines) {name : DecisionField} {value : String}
    (hvalue : OneLine value) : (found.keep name value).InLines := by
  rw [Found.keep]
  split_ifs
  · exact hfound.update hvalue
  · exact hfound

lemma Found.InLines.signedOn (hfound : found.InLines) {date : Option String}
    (hdate : ∀ d, date = some d → OneLine d) : (found.signedOn date).InLines := by
  cases date with
  | none => exact hfound
  | some d =>
    simp only [Found.signedOn]
    split_ifs
    · exact hfound.update (hdate d rfl)
    · exact hfound

lemma inLines_readLine (hfound : found.InLines) (hline : OneLine line) :
    Found.InLines (readLine host found line) := by
  have hcontent : (lineContent host (strip (lstripChars bullets (strip line)))).InLine :=
    lineContent_inLine (oneLine_of_within hline (within_stripped line))
  rw [readLine]
  generalize lineContent host (strip (lstripChars bullets (strip line))) = content at hcontent ⊢
  cases hcontent with
  | nothing => exact hfound
  | dated hdate => exact hfound.signedOn hdate
  | field hvalue => exact hfound.keep hvalue
  | signer hdate hname => exact (hfound.signedOn hdate).keep hname

lemma inLines_foldl (hfound : found.InLines) {lines : List String}
    (hlines : ∀ line ∈ lines, OneLine line) :
    Found.InLines (lines.foldl (readLine host) found) := by
  induction lines generalizing found with
  | nil => exact hfound
  | cons line lines ih =>
    rw [List.foldl_cons]
    exact ih (inLines_readLine hfound (hlines line List.mem_cons_self))
      fun l hl => hlines l (List.mem_cons_of_mem _ hl)

def foundIn (host : Host) (text : String) : Found :=
  (splitlines text).foldl (readLine host) fun _ => none

lemma value_parse (text : String) (f : DecisionField) :
    (parseApprovalDecision host text).value f =
      (foundIn host text f).getD (if f = .purpose then "checkpoint" else "") := by
  cases f <;> rfl

lemma value_oneLine (text : String) (f : DecisionField) :
    OneLine ((parseApprovalDecision host text).value f) := by
  have hempty : Found.InLines fun _ => none := by
    intro f value h
    cases h
  have hfound : (foundIn host text).InLines :=
    inLines_foldl hempty fun _ => oneLine_of_mem_splitlines
  rw [value_parse]
  cases h : foundIn host text f with
  | some value => exact hfound f value h
  | none =>
    rw [Option.getD_none]
    split_ifs <;> decide

end Lines

end AgenticDynamics.Control
