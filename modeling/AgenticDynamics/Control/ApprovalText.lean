import AgenticDynamics.Control.ApprovalActs
import AgenticDynamics.Control.DecisionContract

/-!
# The text of an approval

The approval command writes its artifact by pasting free texts into lines; the contract reads the
lines back. What is written is what is read exactly if the texts are plain.
-/

namespace AgenticDynamics.Control

open Python

/-! ### Writing -/

/-- A `datetime.date`. -/
structure CivilDate where
  year : ℕ
  month : ℕ
  day : ℕ
  year_range : 1 ≤ year ∧ year ≤ 9999
  month_range : 1 ≤ month ∧ month ≤ 12
  day_range : 1 ≤ day ∧ day ≤ 31

namespace CivilDate

/-- The characters of `isoformat`. -/
def chars (d : CivilDate) : List Char :=
  [Nat.digitChar (d.year / 1000 % 10), Nat.digitChar (d.year / 100 % 10),
    Nat.digitChar (d.year / 10 % 10), Nat.digitChar (d.year % 10), '-',
    Nat.digitChar (d.month / 10 % 10), Nat.digitChar (d.month % 10), '-',
    Nat.digitChar (d.day / 10 % 10), Nat.digitChar (d.day % 10)]

def isoformat (d : CivilDate) : String := String.ofList d.chars

end CivilDate

def fieldLine (key value : String) : String := key ++ ": " ++ value

/-- `reason or 'operator approval'`. -/
def ApprovalArgs.writtenReason (a : ApprovalArgs) : String := orElse (some a.reason) "operator approval"

/-- The fields that are pasted as they are, in the order of their lines. -/
def plainFields (a : ApprovalArgs) (treeSha : String) : List (DecisionField × String) :=
  [(.spec, a.spec), (.phase, a.phase), (.runId, a.runId), (.gateId, a.gateId),
    (.candidateSha, a.candidateSha), (.tree, treeSha)]

/-- The lines that `_write_artifact` writes before those of the operator, the date and the
reason. -/
def artifactHead (a : ApprovalArgs) (treeSha : String) : List String :=
  ["---", "status: accepted", "---", "", "# Approval", "", fieldLine "spec" a.spec,
    fieldLine "phase" a.phase, fieldLine "run" a.runId, fieldLine "purpose" "checkpoint",
    fieldLine "gate" a.gateId, fieldLine "candidate" a.candidateSha, fieldLine "tree" treeSha]

/-- The text that `_write_artifact` writes. -/
def artifactText (a : ApprovalArgs) (treeSha : String) (today : CivilDate) : String :=
  String.join ((artifactHead a treeSha ++ [fieldLine "operator" a.operator,
    fieldLine "date" today.isoformat, fieldLine "reason" a.writtenReason]).map (· ++ "\n"))

/-! ### What is asked of it -/

/-- The expectations of the resume gate and of promote: the purpose and the checkpoint's own commit,
which the candidate names; the rest is what was written, or is left out. -/
structure Expectations.Fits (e : Expectations) (a : ApprovalArgs) (treeSha : String) : Prop where
  purpose : e.purpose = some purposeCheckpoint
  commit : ∃ commit, e.candidateSha = some commit ∧ strip commit = commit ∧
    startsWith commit a.candidateSha = true
  spec : ∀ value ∈ e.spec, a.spec = value
  phase : ∀ value ∈ e.phase, a.phase = value
  tree : ∀ value ∈ e.tree, treeSha = value
  runId : ∀ value ∈ e.runId, a.runId = value
  gateId : ∀ value ∈ e.gateId, a.gateId = value

section Round

variable (host : Host) (a : ApprovalArgs) (treeSha : String) (today : CivilDate)

/-- The artifact reads back as it was written, and authorizes the act. -/
structure ReadsBack : Prop where
  read : ∀ field value, (field, value) ∈
      plainFields a treeSha ++ [(.operator, a.operator), (.date, today.isoformat)] →
    (parseApprovalDecision host (artifactText a treeSha today)).value field = value
  valid : ∀ e : Expectations, e.Fits a treeSha →
    validateDecision host (parseApprovalDecision host (artifactText a treeSha today)) e = []

/-- What a line gives a field that nothing was found for. -/
def lineValue (field : DecisionField) (line : String) : Option String :=
  readLine host (fun _ => none) line field

/-- The first value that the reason's own lines give a field. -/
def reasonValue (field : DecisionField) : String :=
  ((splitlines (fieldLine "reason" a.writtenReason ++ "\n")).findSome? (lineValue host field)).getD ""

/-- Neither begins nor ends with white space or decoration. -/
def Plain (value : String) : Prop :=
  Bare isSpace value.toList ∧ Bare (· ∈ decorations) value.toList

def signedAs (value : String) : String :=
  match embeddedDate (decorated value) with
  | some d => signature (remove d (decorated value))
  | none   => signature (decorated value)

/-- A name in one piece: plain, without a comma or a semicolon at its ends, and without a date. -/
def Signable (name : String) : Prop :=
  Plain name ∧ Bare (· ∈ [' ', ',', ';']) name.toList ∧ embeddedDate name = none

instance (value : String) : Decidable (Plain value) :=
  inferInstanceAs (Decidable (Bare isSpace value.toList ∧ Bare (· ∈ decorations) value.toList))

instance (name : String) : Decidable (Signable name) :=
  inferInstanceAs (Decidable
    (Plain name ∧ Bare (· ∈ [' ', ',', ';']) name.toList ∧ embeddedDate name = none))

/-- The written texts can be read back. A text that reads as nothing, as the empty gate of an
approval of the run itself does, is read from the lines of the reason instead. -/
structure Legible : Prop where
  oneLine : ∀ field value, (field, value) ∈ plainFields a treeSha → OneLine value
  plain : ∀ field value, (field, value) ∈ plainFields a treeSha → decorated value ≠ "" → Plain value
  blank : ∀ field value, (field, value) ∈ plainFields a treeSha → decorated value = "" →
    reasonValue host a field = value
  signer : OneLine a.operator
  signed : signedAs a.operator ≠ "" → Signable a.operator
  unsigned : signedAs a.operator = "" → reasonValue host a .operator = a.operator
  date : ∀ d, embeddedDate (decorated a.operator) = some d → d = today.isoformat
  real : operatorIsPlaceholder host a.operator = false

end Round

/-! ### Trimming values -/

lemma toList_decorated (value : String) : (decorated value).toList =
    trim isSpace (trim (· ∈ decorations) (trim isSpace value.toList)) := by
  rw [decorated, toList_strip, toList_stripChars, toList_strip]

lemma decorated_eq_self_iff {value : String} : decorated value = value ↔ Plain value := by
  rw [← String.toList_inj, toList_decorated, trim_trim_eq_self_iff, Plain]

lemma decorated_sublist (value : String) : (decorated value).toList.Sublist value.toList := by
  rw [toList_decorated]
  exact trim_sublist.trans (trim_sublist.trans trim_sublist)

lemma length_decorated_le (value : String) :
    (decorated value).toList.length ≤ value.toList.length := (decorated_sublist value).length_le

lemma toList_signature (value : String) : (signature value).toList =
    trim isSpace (trim (· ∈ [' ', ',', ';']) (decorated value).toList) := by
  rw [signature, toList_strip, toList_stripChars]

lemma signature_sublist (value : String) : (signature value).toList.Sublist value.toList := by
  rw [toList_signature]
  exact trim_sublist.trans (trim_sublist.trans (decorated_sublist value))

lemma length_remove_lt {value d : String} (h : embeddedDate value = some d) :
    (remove d value).toList.length < value.toList.length := by
  obtain ⟨found, hfound, rfl⟩ := Option.map_eq_some_iff.mp h
  obtain ⟨hpart, hne⟩ := searchDate_part hfound
  rw [remove, String.toList_ofList, String.toList_ofList]
  exact length_removeFrom_lt hne hpart

lemma signedAs_eq_self_iff {name : String} :
    signedAs name = name ↔ Signable name := by
  have hlength : ∀ value : String, (signature value).toList.length ≤ value.toList.length :=
    fun value => (signature_sublist value).length_le
  constructor
  · intro h
    rw [signedAs] at h
    cases hdate : embeddedDate (decorated name) with
    | some d =>
      -- what is left of the name is shorter than the name
      rw [hdate] at h
      have hlt : (signature (remove d (decorated name))).toList.length < name.toList.length :=
        calc (signature (remove d (decorated name))).toList.length
            ≤ (remove d (decorated name)).toList.length := hlength _
          _ < (decorated name).toList.length := length_remove_lt hdate
          _ ≤ name.toList.length := length_decorated_le name
      dsimp only at h
      rw [h] at hlt
      exact absurd hlt (lt_irrefl _)
    | none =>
      rw [hdate] at h
      dsimp only at h
      have hplain : decorated name = name := by
        rw [← String.toList_inj]
        refine (decorated_sublist name).eq_of_length_le ?_
        calc name.toList.length = (signature (decorated name)).toList.length := by rw [h]
          _ ≤ (decorated name).toList.length := hlength _
      rw [hplain] at h hdate
      have htrim : trim isSpace (trim (· ∈ [' ', ',', ';']) name.toList) = name.toList := by
        have hlist := congrArg String.toList h
        rwa [toList_signature, hplain] at hlist
      have hbare : trim (· ∈ [' ', ',', ';']) name.toList = name.toList := trim_eq_of_length (by
        calc name.toList.length
            = (trim isSpace (trim (· ∈ [' ', ',', ';']) name.toList)).length := by rw [htrim]
          _ ≤ (trim (· ∈ [' ', ',', ';']) name.toList).length := length_trim_le)
      exact ⟨decorated_eq_self_iff.mp hplain, trim_eq_self_iff.mp hbare, hdate⟩
  · rintro ⟨hplain, hbare, hdate⟩
    have hdecorated := decorated_eq_self_iff.mpr hplain
    rw [signedAs, hdecorated, hdate]
    dsimp only
    rw [← String.toList_inj, toList_signature, hdecorated, trim_eq_self_iff.mpr hbare,
      trim_eq_self_iff.mpr hplain.1]

/-! ### Lines that name a field -/

/-- `str.lower` leaves words of lower-case letters alone. -/
def LowersWords (host : Host) : Prop :=
  ∀ text : String, (∀ c ∈ text.toList, c.isLower = true) → host.lower text = text

structure KeyWord (key : String) : Prop where
  filled : key ≠ ""
  letters : ∀ c ∈ key.toList, c.isLower = true

lemma isLower_range {c : Char} (h : c.isLower = true) : 97 ≤ c.toNat ∧ c.toNat ≤ 122 := by
  obtain ⟨hlow, hhigh⟩ : 'a'.val ≤ c.val ∧ c.val ≤ 'z'.val :=
    (Bool.and_eq_true_iff.mp h).imp of_decide_eq_true of_decide_eq_true
  exact ⟨UInt32.le_iff_toNat_le.mp hlow, UInt32.le_iff_toNat_le.mp hhigh⟩

lemma isLower_props {c : Char} (h : c.isLower = true) :
    isSpace c = false ∧ ∀ d : Char, d.toNat < 97 → c ≠ d := by
  have hrange := isLower_range h
  constructor
  · simp only [isSpace, Bool.or_eq_false_iff, Bool.and_eq_false_iff, decide_eq_false_iff_not,
      beq_eq_false_iff_ne]
    omega
  · rintro d hd rfl
    omega

lemma not_mem_of_letter {c : Char} (h : c.isLower = true) {chars : List Char}
    (hchars : ∀ d ∈ chars, d.toNat < 97) : c ∉ chars :=
  fun hc => (isLower_props h).2 c (hchars c hc) rfl

section Lines

variable {host : Host} {key value : String} {found : Found}

lemma KeyWord.bare (hkey : KeyWord key) {p : Char → Bool}
    (hp : ∀ c : Char, c.isLower = true → p c = false) : Bare p key.toList :=
  ⟨fun c hc => hp c (hkey.letters c (List.mem_of_mem_head? hc)),
    fun c hc => hp c (hkey.letters c (List.mem_of_mem_getLast? hc))⟩

lemma strip_word (hkey : KeyWord key) : strip key = key := by
  rw [← String.toList_inj, toList_strip, trim_eq_self_iff]
  exact hkey.bare fun c hc => (isLower_props hc).1

lemma stripChars_word (hkey : KeyWord key) {chars : List Char}
    (hchars : ∀ d ∈ chars, d.toNat < 97) : stripChars chars key = key := by
  rw [← String.toList_inj, toList_stripChars, trim_eq_self_iff]
  exact hkey.bare fun c hc => by simpa using not_mem_of_letter hc hchars

lemma normalizeKey_word (hlower : LowersWords host) (hkey : KeyWord key) :
    normalizeKey host key = key := by
  have hwords : words key = [key] := by
    have hsingle : key.toList.splitOnP isSpace = [key.toList] :=
      List.splitOnP_eq_singleton fun c hc => by simp [(isLower_props (hkey.letters c hc)).1]
    have hne : key.toList ≠ [] := fun h => hkey.filled (String.toList_inj.mp (by simpa using h))
    rw [words, hsingle]
    simp [hne]
  rw [normalizeKey, strip_word hkey, stripChars_word hkey (by simp), strip_word hkey,
    hlower key hkey.letters, hwords]
  rfl

lemma toList_fieldLine (key value : String) :
    (fieldLine key value).toList = key.toList ++ ':' :: ' ' :: value.toList := by
  simp [fieldLine]

lemma stripped_fieldLine (hkey : KeyWord key) (value : String) :
    (strip (lstripChars bullets (strip (fieldLine key value)))).toList =
      key.toList ++ ':' :: (' ' :: value.toList).rdropWhile isSpace := by
  have hcolon : isSpace ':' = false := by decide
  have hbullets : ∀ d ∈ bullets, d.toNat < 97 := by simp [bullets]
  obtain ⟨c, rest, hchars⟩ : ∃ c rest, key.toList = c :: rest :=
    List.exists_cons_of_ne_nil fun h => hkey.filled (String.toList_inj.mp (by simpa using h))
  have hletter : c.isLower = true := hkey.letters c (by rw [hchars]; exact List.mem_cons_self)
  have hspace := (isLower_props hletter).1
  have hbullet : decide (c ∈ bullets) = false := by simpa using not_mem_of_letter hletter hbullets
  have hdrop : ∀ {p : Char → Bool} (l : List Char), p c = false →
      (key.toList ++ l).dropWhile p = key.toList ++ l := by
    intro p l hp
    rw [hchars, List.cons_append, List.dropWhile_cons_of_neg (by simp [hp])]
  have htrim : ∀ l, trim isSpace (key.toList ++ ':' :: l) =
      key.toList ++ ':' :: l.rdropWhile isSpace := by
    intro l
    rw [trim, hdrop _ hspace, rdropWhile_append_cons hcolon]
  rw [toList_strip, lstripChars, String.toList_ofList, toList_strip, toList_fieldLine, htrim,
    hdrop _ hbullet, htrim, List.rdropWhile_idempotent]

lemma dropWhile_rdropWhile {α : Type} (p : α → Bool) (l : List α) :
    (l.rdropWhile p).dropWhile p = trim p l := by
  rw [trim]
  by_cases hall : ∀ a ∈ l, p a = true
  · have hleft : l.dropWhile p = [] := List.dropWhile_eq_nil_iff.mpr hall
    have hright : l.rdropWhile p = [] := List.rdropWhile_eq_nil_iff.mpr hall
    rw [hleft, hright]
    rfl
  · -- the first element that is kept splits the list
    push Not at hall
    obtain ⟨a, rest, hrest⟩ : ∃ a rest, l.dropWhile p = a :: rest := by
      refine List.exists_cons_of_ne_nil fun hnil => ?_
      obtain ⟨b, hb, hpb⟩ := hall
      exact hpb (List.dropWhile_eq_nil_iff.mp hnil b hb)
    have ha : p a = false := by
      have hnot := List.dropWhile_get_zero_not p l (by rw [hrest]; simp)
      simpa [hrest] using hnot
    have hsplit : l = l.takeWhile p ++ a :: rest := by
      rw [← hrest, List.takeWhile_append_dropWhile]
    have hkept : (a :: rest).rdropWhile p = a :: rest.rdropWhile p :=
      rdropWhile_append_cons (l := []) ha
    rw [hrest, hkept, hsplit, rdropWhile_append_cons ha,
      List.dropWhile_append_of_pos fun b hb => List.mem_takeWhile_imp hb,
      List.dropWhile_cons_of_neg (by simp [ha])]

lemma decorated_rdropWhile (value : String) :
    decorated (String.ofList ((' ' :: value.toList).rdropWhile isSpace)) = decorated value := by
  have hstrip : strip (String.ofList ((' ' :: value.toList).rdropWhile isSpace)) = strip value := by
    have hspace : isSpace ' ' = true := by decide
    rw [← String.toList_inj, toList_strip, String.toList_ofList, toList_strip, trim,
      dropWhile_rdropWhile, trim, List.dropWhile_cons_of_pos hspace, ← trim, trim,
      List.rdropWhile_idempotent]
  rw [decorated, hstrip, decorated]

lemma readLine_fieldLine (hlower : LowersWords host) (hkey : KeyWord key) (value : String) :
    readLine host found (fieldLine key value) = found.add (match fieldByKey key with
      | none           => .nothing
      | some .date     => .field .date ((embeddedDate (decorated value)).getD (decorated value))
      | some .operator => .signer (embeddedDate (decorated value)) (signedAs value)
      | some name      => .field name (decorated value)) := by
  have hchars := stripped_fieldLine hkey value
  rw [readLine]
  generalize strip (lstripChars bullets (strip (fieldLine key value))) = stripped at hchars ⊢
  obtain ⟨c, rest, hcons⟩ : ∃ c rest, key.toList = c :: rest :=
    List.exists_cons_of_ne_nil fun h => hkey.filled (String.toList_inj.mp (by simpa using h))
  have hletter : c.isLower = true := hkey.letters c (by rw [hcons]; exact List.mem_cons_self)
  have hfilled : ¬ (stripped = "" ∨ startsWith stripped "#" = true) := by
    rintro (rfl | h)
    · simp [hcons] at hchars
    · rw [startsWith, hchars, hcons] at h
      have hhash : ('#' == c) = true := by simpa using h
      exact (isLower_props hletter).2 '#' (by decide) (beq_iff_eq.mp hhash).symm
  have hcolon : ':' ∈ stripped.toList := by
    rw [hchars]
    simp
  have hletters : ∀ c ∈ key.toList, decide (c ≠ ':') = true := by
    intro c hc
    simpa using (isLower_props (hkey.letters c hc)).2 ':' (by decide)
  have hparts : Python.partition ':' stripped =
      (key, String.ofList ((' ' :: value.toList).rdropWhile isSpace)) := by
    rw [Python.partition, hchars, List.takeWhile_append_of_pos hletters,
      List.dropWhile_append_of_pos hletters, List.takeWhile_cons_of_neg (by simp),
      List.dropWhile_cons_of_neg (by simp), List.append_nil, String.ofList_toList]
    rfl
  rw [lineContent, if_neg hfilled, if_neg (not_not.mpr hcolon), hparts]
  dsimp only
  rw [normalizeKey_word hlower hkey, decorated_rdropWhile]
  cases hfield : fieldByKey key with
  | none => rfl
  | some name =>
    cases name
    case operator =>
      dsimp only
      rw [signedAs]
      cases embeddedDate (decorated value) <;> rfl
    all_goals rfl

end Lines

end AgenticDynamics.Control
