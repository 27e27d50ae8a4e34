import AgenticDynamics.Control.ApprovalText

/-!
# Approvals that are written are read

The lines of a written artifact, what each of them says, and what the contract finds in the whole.
-/

namespace AgenticDynamics.Control

open Python

/-! ### Dates -/

namespace CivilDate

lemma digit_props (n : ℕ) : isDecimal (Nat.digitChar (n % 10)) = true ∧
    isLineBreak (Nat.digitChar (n % 10)) = false ∧ isSpace (Nat.digitChar (n % 10)) = false ∧
    Nat.digitChar (n % 10) ∉ decorations ∧ Nat.digitChar (n % 10) ≠ 'Z' := by
  have hdigits : ∀ m < 10, isDecimal (Nat.digitChar m) = true ∧
      isLineBreak (Nat.digitChar m) = false ∧ isSpace (Nat.digitChar m) = false ∧
      Nat.digitChar m ∉ decorations ∧ Nat.digitChar m ≠ 'Z' := by decide +kernel
  exact hdigits _ (Nat.mod_lt _ (by decide))

variable (d : CivilDate)

lemma mem_chars {c : Char} (h : c ∈ d.chars) : c = '-' ∨ ∃ n, c = Nat.digitChar (n % 10) := by
  simp only [chars, List.mem_cons, List.not_mem_nil, or_false] at h
  rcases h with h | h | h | h | h | h | h | h | h | h
  all_goals first
    | exact Or.inl h
    | exact Or.inr ⟨_, h⟩

lemma oneLine_isoformat : OneLine d.isoformat := by
  intro c hc
  rw [isoformat, String.toList_ofList] at hc
  rcases d.mem_chars hc with rfl | ⟨n, rfl⟩
  · decide
  · exact (digit_props n).2.1

lemma plain_isoformat : Plain d.isoformat := by
  rw [Plain, isoformat, String.toList_ofList]
  refine ⟨⟨?_, ?_⟩, ?_, ?_⟩
  all_goals
    intro c hc
    cases hc
    first
      | exact (digit_props _).2.2.1
      | simpa using (digit_props _).2.2.2.1

lemma embeddedDate_isoformat : embeddedDate d.isoformat = some d.isoformat := by
  have hstarts : startsWithDate d.chars = true := by
    simp [startsWithDate, chars, datePattern, (digit_props _).1]
  rw [embeddedDate, isoformat, String.toList_ofList, chars, searchDate, ← chars, if_pos hstarts]
  rfl

lemma replaceZ_isoformat : replaceZ d.isoformat = d.isoformat := by
  have hkept : ∀ l : List Char, 'Z' ∉ l →
      (l.flatMap fun c => if c = 'Z' then "+00:00".toList else [c]) = l := by
    intro l hl
    induction l with
    | nil => rfl
    | cons c l ih =>
      have hc : c ≠ 'Z' := fun h => hl (h ▸ List.mem_cons_self)
      rw [List.flatMap_cons, if_neg hc, ih fun h => hl (List.mem_cons_of_mem _ h)]
      rfl
  rw [replaceZ, hkept, String.ofList_toList]
  intro h
  rw [isoformat, String.toList_ofList] at h
  rcases d.mem_chars h with h | ⟨n, h⟩
  · exact absurd h (by decide)
  · exact (digit_props n).2.2.2.2 h.symm

lemma isoformat_ne_empty : d.isoformat ≠ "" := by
  intro h
  have hlist := congrArg String.toList h
  rw [isoformat, String.toList_ofList] at hlist
  cases hlist

end CivilDate

/-! ### The lines of an artifact -/

lemma splitlines_join {lines : List String} (h : ∀ line ∈ lines, OneLine line) (rest : String) :
    splitlines (String.join (lines.map (· ++ "\n")) ++ rest) = lines ++ splitlines rest := by
  induction lines with
  | nil => simp
  | cons line lines ih =>
    rw [List.map_cons, String.join_cons, String.append_assoc, String.append_assoc,
      splitlines_cons (h line List.mem_cons_self), ih fun l hl => h l (List.mem_cons_of_mem _ hl),
      List.cons_append]

lemma isLineBreak_letter {c : Char} (h : c.isLower = true) : isLineBreak c = false := by
  have hrange := isLower_range h
  simp only [isLineBreak, Bool.or_eq_false_iff, Bool.and_eq_false_iff, decide_eq_false_iff_not,
    beq_eq_false_iff_ne]
  omega

lemma oneLine_fieldLine {key value : String} (hkey : KeyWord key) (hvalue : OneLine value) :
    OneLine (fieldLine key value) := by
  intro c hc
  rw [toList_fieldLine, List.mem_append, List.mem_cons, List.mem_cons] at hc
  rcases hc with hc | rfl | rfl | hc
  · exact isLineBreak_letter (hkey.letters c hc)
  · decide
  · decide
  · exact hvalue c hc

lemma keyWord_iff (key : String) : KeyWord key ↔ key ≠ "" ∧ key.toList.all Char.isLower = true :=
  ⟨fun h => ⟨h.filled, List.all_eq_true.mpr h.letters⟩,
    fun h => ⟨h.1, List.all_eq_true.mp h.2⟩⟩

instance (key : String) : Decidable (KeyWord key) := decidable_of_iff _ (keyWord_iff key).symm

section Artifact

variable {host : Host} {a : ApprovalArgs} {treeSha : String} {today : CivilDate} {found : Found}
  {f : DecisionField}

/-- The keys under which the plain fields are written. -/
def writtenKey : DecisionField → String
  | .operator     => "operator"
  | .date         => "date"
  | .candidateSha => "candidate"
  | .runId        => "run"
  | .gateId       => "gate"
  | .spec         => "spec"
  | .phase        => "phase"
  | .tree         => "tree"
  | .purpose      => "purpose"

lemma writtenKey_props (f : DecisionField) :
    KeyWord (writtenKey f) ∧ fieldByKey (writtenKey f) = some f := by
  cases f <;> decide +kernel

lemma keep_none (name : DecisionField) (value : String) :
    Found.keep name value (fun _ => none) f =
      if f = name ∧ value ≠ "" then some value else none := by
  rw [Found.keep]
  by_cases hvalue : value = ""
  · simp [hvalue]
  · by_cases hf : f = name
    · subst hf
      simp [hvalue]
    · rw [if_pos ⟨hvalue, rfl⟩, Function.update_of_ne hf, if_neg fun h => hf h.1]

lemma lineValue_plain (hlower : LowersWords host) {name : DecisionField}
    (hname : name ≠ .operator ∧ name ≠ .date) (value : String) :
    lineValue host f (fieldLine (writtenKey name) value) =
      if f = name ∧ decorated value ≠ "" then some (decorated value) else none := by
  rw [← keep_none, lineValue, readLine_fieldLine hlower (writtenKey_props name).1,
    (writtenKey_props name).2]
  cases name
  case operator => exact absurd rfl hname.1
  case date => exact absurd rfl hname.2
  all_goals rfl

lemma lineValue_operator (hlower : LowersWords host) (hf : f ≠ .date) (value : String) :
    lineValue host f (fieldLine (writtenKey .operator) value) =
      if f = .operator ∧ signedAs value ≠ "" then some (signedAs value) else none := by
  rw [← keep_none, lineValue, readLine_fieldLine hlower (writtenKey_props .operator).1,
    (writtenKey_props .operator).2]
  dsimp only [Found.add]
  rw [keep_apply, signedOn_apply hf, Option.none_or]

lemma lineValue_date (hlower : LowersWords host) (hf : f ≠ .date) (value : String) :
    lineValue host f (fieldLine (writtenKey .date) value) = none := by
  rw [lineValue, readLine_fieldLine hlower (writtenKey_props .date).1, (writtenKey_props .date).2]
  dsimp only [Found.add]
  rw [keep_none, if_neg fun h => hf h.1]

lemma readLine_silent (hlower : LowersWords host) {line : String}
    (hline : line ∈ ["---", "status: accepted", "", "# Approval"]) :
    readLine host found line = found := by
  have hkey : KeyWord "status" ∧ fieldByKey "status" = none := by decide +kernel
  have hempty : strip (lstripChars bullets (strip "---")) = "" ∧
      strip (lstripChars bullets (strip "")) = "" := by decide +kernel
  have htitle : strip (lstripChars bullets (strip "# Approval")) = "# Approval" ∧
      startsWith "# Approval" "#" = true := by decide +kernel
  have hblank : lineContent host "" = .nothing := by
    rw [lineContent, if_pos (Or.inl rfl)]
  simp only [List.mem_cons, List.not_mem_nil, or_false] at hline
  rcases hline with rfl | rfl | rfl | rfl
  · rw [readLine, hempty.1, hblank]
    rfl
  · have hread : readLine host found (fieldLine "status" "accepted") = _ :=
      readLine_fieldLine hlower hkey.1 "accepted"
    rw [hkey.2] at hread
    exact hread
  · rw [readLine, hempty.2, hblank]
    rfl
  · rw [readLine, htitle.1, lineContent, if_pos (Or.inr htitle.2)]
    rfl

lemma findSome?_head (hlower : LowersWords host) {value : String}
    (hmem : (f, value) ∈ (.purpose, "checkpoint") :: plainFields a treeSha) :
    (artifactHead a treeSha).findSome? (lineValue host f) =
      if decorated value = "" then none else some (decorated value) := by
  have hsilent : ∀ line ∈ ["---", "status: accepted", "", "# Approval"],
      lineValue host f line = none := by
    intro line hline
    rw [lineValue, readLine_silent hlower hline]
  have hplain : ∀ name : DecisionField, name ≠ .operator ∧ name ≠ .date → ∀ value,
      lineValue host f (fieldLine (writtenKey name) value) =
        if f = name ∧ decorated value ≠ "" then some (decorated value) else none :=
    fun name hname value => lineValue_plain hlower hname value
  have hlines : artifactHead a treeSha = ["---", "status: accepted", "---", "", "# Approval", "",
      fieldLine (writtenKey .spec) a.spec, fieldLine (writtenKey .phase) a.phase,
      fieldLine (writtenKey .runId) a.runId, fieldLine (writtenKey .purpose) "checkpoint",
      fieldLine (writtenKey .gateId) a.gateId, fieldLine (writtenKey .candidateSha) a.candidateSha,
      fieldLine (writtenKey .tree) treeSha] := rfl
  rw [hlines]
  simp only [List.findSome?_cons, List.findSome?_nil, hsilent "---" (by simp),
    hsilent "status: accepted" (by simp), hsilent "" (by simp), hsilent "# Approval" (by simp),
    hplain .spec (by decide), hplain .phase (by decide), hplain .runId (by decide),
    hplain .purpose (by decide), hplain .gateId (by decide), hplain .candidateSha (by decide),
    hplain .tree (by decide)]
  simp only [plainFields, List.mem_cons, List.not_mem_nil, or_false, Prod.mk.injEq] at hmem
  rcases hmem with ⟨rfl, rfl⟩ | ⟨rfl, rfl⟩ | ⟨rfl, rfl⟩ | ⟨rfl, rfl⟩ | ⟨rfl, rfl⟩ | ⟨rfl, rfl⟩ |
    ⟨rfl, rfl⟩
  all_goals
    simp only [true_and, reduceCtorEq, false_and, if_false, ite_not]
    split_ifs <;> rfl

lemma mem_artifactHead {line : String} (h : line ∈ artifactHead a treeSha) :
    line ∈ ["---", "status: accepted", "", "# Approval"] ∨
      ∃ name value, (name, value) ∈ (.purpose, "checkpoint") :: plainFields a treeSha ∧
        line = fieldLine (writtenKey name) value := by
  simp only [artifactHead, List.mem_cons, List.not_mem_nil, or_false] at h
  rcases h with h | h | h | h | h | h | h | h | h | h | h | h | h
  · exact Or.inl (by simp [h])
  · exact Or.inl (by simp [h])
  · exact Or.inl (by simp [h])
  · exact Or.inl (by simp [h])
  · exact Or.inl (by simp [h])
  · exact Or.inl (by simp [h])
  · exact Or.inr ⟨.spec, a.spec, by simp [plainFields], h⟩
  · exact Or.inr ⟨.phase, a.phase, by simp [plainFields], h⟩
  · exact Or.inr ⟨.runId, a.runId, by simp [plainFields], h⟩
  · exact Or.inr ⟨.purpose, "checkpoint", by simp, h⟩
  · exact Or.inr ⟨.gateId, a.gateId, by simp [plainFields], h⟩
  · exact Or.inr ⟨.candidateSha, a.candidateSha, by simp [plainFields], h⟩
  · exact Or.inr ⟨.tree, treeSha, by simp [plainFields], h⟩

lemma plain_name {name : DecisionField} {value : String}
    (h : (name, value) ∈ (.purpose, "checkpoint") :: plainFields a treeSha) :
    name ≠ .operator ∧ name ≠ .date := by
  simp only [plainFields, List.mem_cons, List.not_mem_nil, or_false, Prod.mk.injEq] at h
  rcases h with ⟨rfl, -⟩ | ⟨rfl, -⟩ | ⟨rfl, -⟩ | ⟨rfl, -⟩ | ⟨rfl, -⟩ | ⟨rfl, -⟩ | ⟨rfl, -⟩
  all_goals decide

lemma oneLine_head (h : ∀ field value, (field, value) ∈ plainFields a treeSha → OneLine value)
    {line : String} (hline : line ∈ artifactHead a treeSha) : OneLine line := by
  rcases mem_artifactHead hline with hsilent | ⟨name, value, hmem, rfl⟩
  · have hall : ∀ l ∈ ["---", "status: accepted", "", "# Approval"], OneLine l := by decide +kernel
    exact hall line hsilent
  · refine oneLine_fieldLine (writtenKey_props name).1 ?_
    rcases List.mem_cons.mp hmem with hpurpose | hplain
    · cases hpurpose
      decide
    · exact h name value hplain

lemma findSome?_head_operator (hlower : LowersWords host) :
    (artifactHead a treeSha).findSome? (lineValue host .operator) = none := by
  rw [List.findSome?_eq_none_iff]
  intro line hline
  rcases mem_artifactHead hline with hsilent | ⟨name, value, hmem, rfl⟩
  · rw [lineValue, readLine_silent hlower hsilent]
  · rw [lineValue_plain hlower (plain_name hmem), if_neg fun h => (plain_name hmem).1 h.1.symm]

lemma foldl_head_date (hlower : LowersWords host) :
    (artifactHead a treeSha).foldl (readLine host) found .date = found .date := by
  have hline : ∀ line ∈ artifactHead a treeSha, ∀ found : Found,
      readLine host found line .date = found .date := by
    intro line hline found
    rcases mem_artifactHead hline with hsilent | ⟨name, value, hmem, rfl⟩
    · rw [readLine_silent hlower hsilent]
    · obtain ⟨hoperator, hdate⟩ := plain_name hmem
      have hread : readLine host found (fieldLine (writtenKey name) value) =
          found.keep name (decorated value) := by
        rw [readLine_fieldLine hlower (writtenKey_props name).1, (writtenKey_props name).2]
        cases name
        case operator => exact absurd rfl hoperator
        case date => exact absurd rfl hdate
        all_goals rfl
      rw [hread, keep_apply, keep_none, if_neg fun h => hdate h.1.symm, Option.or_none]
  generalize artifactHead a treeSha = lines at hline ⊢
  induction lines generalizing found with
  | nil => rfl
  | cons line lines ih =>
    rw [List.foldl_cons, ih fun l hl => hline l (List.mem_cons_of_mem _ hl),
      hline line List.mem_cons_self]

/-! ### What the contract finds -/

def reasonLines (a : ApprovalArgs) : List String :=
  splitlines (fieldLine "reason" a.writtenReason ++ "\n")

/-- The pasted texts are free of line breaks. -/
def Whole (a : ApprovalArgs) (treeSha : String) : Prop :=
  (∀ field value, (field, value) ∈ plainFields a treeSha → OneLine value) ∧ OneLine a.operator

lemma splitlines_artifactText (hwhole : Whole a treeSha) :
    splitlines (artifactText a treeSha today) = artifactHead a treeSha ++
      (fieldLine (writtenKey .operator) a.operator :: fieldLine (writtenKey .date) today.isoformat ::
        reasonLines a) := by
  have htext : artifactText a treeSha today =
      String.join ((artifactHead a treeSha ++ [fieldLine (writtenKey .operator) a.operator,
        fieldLine (writtenKey .date) today.isoformat]).map (· ++ "\n")) ++
          (fieldLine "reason" a.writtenReason ++ "\n") := by
    rw [artifactText, List.map_append, List.map_append, String.join_append, String.join_append,
      String.append_assoc]
    congr 1
  rw [htext, splitlines_join, reasonLines, List.append_assoc]
  · rfl
  · intro line hline
    rcases List.mem_append.mp hline with hhead | hline
    · exact oneLine_head hwhole.1 hhead
    · simp only [List.mem_cons, List.not_mem_nil, or_false] at hline
      rcases hline with rfl | rfl
      · exact oneLine_fieldLine (writtenKey_props .operator).1 hwhole.2
      · exact oneLine_fieldLine (writtenKey_props .date).1 today.oneLine_isoformat

lemma foundIn_artifact (hwhole : Whole a treeSha) (hf : f ≠ .date) :
    foundIn host (artifactText a treeSha today) f =
      ((artifactHead a treeSha).findSome? (lineValue host f)).or
        ((lineValue host f (fieldLine (writtenKey .operator) a.operator)).or
          ((lineValue host f (fieldLine (writtenKey .date) today.isoformat)).or
            ((reasonLines a).findSome? (lineValue host f)))) := by
  rw [foundIn, foldl_readLine_apply hf, splitlines_artifactText hwhole, Option.none_or]
  show List.findSome? (lineValue host f) _ = _
  rw [List.findSome?_append, List.findSome?_cons, List.findSome?_cons]
  cases lineValue host f (fieldLine (writtenKey .operator) a.operator) <;>
    cases lineValue host f (fieldLine (writtenKey .date) today.isoformat) <;> rfl

lemma value_plain (hlower : LowersWords host) (hwhole : Whole a treeSha) {value : String}
    (hmem : (f, value) ∈ plainFields a treeSha) :
    (parseApprovalDecision host (artifactText a treeSha today)).value f =
      if decorated value = "" then reasonValue host a f else decorated value := by
  obtain ⟨hoperator, hdate⟩ := plain_name (List.mem_cons_of_mem _ hmem)
  have hpurpose : f ≠ .purpose := by
    rintro rfl
    simp [plainFields] at hmem
  have hsigned : ¬ (f = .operator ∧ signedAs a.operator ≠ "") := fun h => hoperator h.1
  rw [value_parse, if_neg hpurpose, foundIn_artifact hwhole hdate,
    findSome?_head hlower (List.mem_cons_of_mem _ hmem), lineValue_operator hlower hdate,
    lineValue_date hlower hdate, if_neg hsigned]
  by_cases hvalue : decorated value = ""
  · rw [if_pos hvalue, if_pos hvalue, Option.none_or, Option.none_or, Option.none_or, reasonValue,
      reasonLines]
  · rw [if_neg hvalue, if_neg hvalue, Option.some_or, Option.getD_some]

lemma value_operator (hlower : LowersWords host) (hwhole : Whole a treeSha) :
    (parseApprovalDecision host (artifactText a treeSha today)).value .operator =
      if signedAs a.operator = "" then reasonValue host a .operator else signedAs a.operator := by
  have hdate : DecisionField.operator ≠ .date := by decide
  rw [value_parse, if_neg (by decide), foundIn_artifact hwhole hdate,
    findSome?_head_operator hlower, lineValue_operator hlower hdate, lineValue_date hlower hdate]
  by_cases hsigned : signedAs a.operator = "" <;> simp [hsigned, reasonValue, reasonLines]

lemma value_purpose (hlower : LowersWords host) (hwhole : Whole a treeSha) :
    (parseApprovalDecision host (artifactText a treeSha today)).value .purpose = "checkpoint" := by
  have hdecorated : decorated "checkpoint" = "checkpoint" := by decide +kernel
  rw [value_parse, foundIn_artifact hwhole (by decide), findSome?_head hlower List.mem_cons_self,
    hdecorated]
  rfl

lemma value_date (hlower : LowersWords host) (hwhole : Whole a treeSha) :
    (parseApprovalDecision host (artifactText a treeSha today)).value .date =
      (embeddedDate (decorated a.operator)).getD today.isoformat := by
  have hne : ∀ d, embeddedDate (decorated a.operator) = some d → d ≠ "" := by
    rintro d hd rfl
    obtain ⟨found, hfound, hempty⟩ := Option.map_eq_some_iff.mp hd
    exact (searchDate_part hfound).2 (by simpa using congrArg String.toList hempty)
  have hdecorated := decorated_eq_self_iff.mpr today.plain_isoformat
  have hdated : ∀ found : Found,
      readLine host found (fieldLine (writtenKey .date) today.isoformat) = found.keep .date today.isoformat := by
    intro found
    rw [readLine_fieldLine hlower (writtenKey_props .date).1, (writtenKey_props .date).2, hdecorated,
      today.embeddedDate_isoformat]
    rfl
  rw [value_parse, if_neg (by decide), foundIn, splitlines_artifactText hwhole, List.foldl_append,
    List.foldl_cons, List.foldl_cons, hdated]
  have hhead : (artifactHead a treeSha).foldl (readLine host) (fun _ => none) .date = none :=
    foldl_head_date hlower
  generalize (artifactHead a treeSha).foldl (readLine host) (fun _ => none) = found at hhead ⊢
  have hsigned : readLine host found (fieldLine (writtenKey .operator) a.operator) .date =
      found.signedOn (embeddedDate (decorated a.operator)) .date := by
    rw [readLine_fieldLine hlower (writtenKey_props .operator).1, (writtenKey_props .operator).2]
    dsimp only [Found.add]
    rw [keep_apply, keep_none, if_neg fun h => absurd h.1 (by decide), Option.or_none]
  generalize readLine host found (fieldLine (writtenKey .operator) a.operator) = signed at hsigned ⊢
  generalize embeddedDate (decorated a.operator) = date at hne hsigned ⊢
  have hboth : signed.keep .date today.isoformat .date = some (date.getD today.isoformat) := by
    rw [keep_apply, hsigned, keep_none, if_pos ⟨rfl, today.isoformat_ne_empty⟩]
    cases date with
    | none => rw [Found.signedOn, hhead, Option.none_or, Option.getD_none]
    | some d => simp [Found.signedOn, hhead]
  rw [foldl_readLine_date hboth, Option.getD_some]
  cases date with
  | none => exact today.isoformat_ne_empty
  | some d => exact hne d rfl

/-! ### Round trips -/

/-- Every value but a date is stripped of white space. -/
inductive LineContent.Stripped : LineContent → Prop
  | nothing : Stripped .nothing
  | dated {date : Option String} : Stripped (.dated date)
  | field {name : DecisionField} {value : String} (h : name ≠ .date → strip value = value) :
      Stripped (.field name value)
  | signer {date : Option String} {name : String} (h : strip name = name) :
      Stripped (.signer date name)

lemma lineContent_stripped (stripped : String) : (lineContent host stripped).Stripped := by
  rw [lineContent]
  dsimp only
  split
  · exact .nothing
  split
  · split
    · exact .dated
    · exact .nothing
  split
  · exact .nothing
  · exact .field fun hdate => absurd rfl hdate
  · split
    · exact .signer (strip_strip _)
    · exact .signer (strip_strip _)
  · exact .field fun _ => strip_strip _

lemma strip_lineValue (hf : f ≠ .date) {line value : String}
    (h : lineValue host f line = some value) : strip value = value := by
  have hcontent : (lineContent host (strip (lstripChars bullets (strip line)))).Stripped :=
    lineContent_stripped _
  rw [lineValue, readLine] at h
  generalize lineContent host (strip (lstripChars bullets (strip line))) = content at h hcontent
  cases hcontent with
  | nothing => cases h
  | dated =>
    rw [Found.add, signedOn_apply hf] at h
    cases h
  | field hvalue =>
    rw [Found.add, keep_none] at h
    obtain ⟨⟨hname, -⟩, heq⟩ := Option.ite_none_right_eq_some.mp h
    rw [← Option.some.inj heq]
    exact hvalue (hname ▸ hf)
  | signer hname =>
    rw [Found.add, keep_apply, signedOn_apply hf, Option.none_or, keep_none] at h
    obtain ⟨-, heq⟩ := Option.ite_none_right_eq_some.mp h
    rw [← Option.some.inj heq]
    exact hname

lemma strip_reasonValue (hf : f ≠ .date) :
    strip (reasonValue host a f) = reasonValue host a f := by
  rw [reasonValue]
  cases h : (splitlines (fieldLine "reason" a.writtenReason ++ "\n")).findSome?
      (lineValue host f) with
  | none => decide +kernel
  | some value =>
    obtain ⟨line, -, hline⟩ := List.exists_of_findSome?_eq_some h
    exact strip_lineValue hf hline

lemma strip_candidate (hlower : LowersWords host) (hwhole : Whole a treeSha)
    (hread : (parseApprovalDecision host (artifactText a treeSha today)).value .candidateSha =
      a.candidateSha) : strip a.candidateSha = a.candidateSha := by
  have hmem : (.candidateSha, a.candidateSha) ∈ plainFields a treeSha := by simp [plainFields]
  rw [value_plain hlower hwhole hmem] at hread
  by_cases hempty : decorated a.candidateSha = ""
  · rw [if_pos hempty] at hread
    rw [← hread]
    exact strip_reasonValue (by decide)
  · rw [if_neg hempty] at hread
    rw [← hread]
    exact strip_strip _

lemma Legible.read (hlower : LowersWords host) (h : Legible host a treeSha today) :
    ∀ field value, (field, value) ∈
        plainFields a treeSha ++ [(.operator, a.operator), (.date, today.isoformat)] →
      (parseApprovalDecision host (artifactText a treeSha today)).value field = value := by
  have hwhole : Whole a treeSha := ⟨h.oneLine, h.signer⟩
  intro field value hmem
  rcases List.mem_append.mp hmem with hmem | hmem
  · rw [value_plain hlower hwhole hmem]
    by_cases hempty : decorated value = ""
    · rw [if_pos hempty]
      exact h.blank field value hmem hempty
    · rw [if_neg hempty]
      exact decorated_eq_self_iff.mpr (h.plain field value hmem hempty)
  · simp only [List.mem_cons, List.not_mem_nil, or_false, Prod.mk.injEq] at hmem
    rcases hmem with ⟨rfl, rfl⟩ | ⟨rfl, rfl⟩
    · rw [value_operator hlower hwhole]
      by_cases hempty : signedAs a.operator = ""
      · rw [if_pos hempty]
        exact h.unsigned hempty
      · rw [if_neg hempty]
        exact signedAs_eq_self_iff.mpr (h.signed hempty)
    · rw [value_date hlower hwhole]
      cases hd : embeddedDate (decorated a.operator) with
      | none => rfl
      | some d => exact h.date d hd

lemma whole_of_read (hread : ∀ field value, (field, value) ∈
        plainFields a treeSha ++ [(.operator, a.operator), (.date, today.isoformat)] →
      (parseApprovalDecision host (artifactText a treeSha today)).value field = value) :
    Whole a treeSha := by
  constructor
  · intro field value hmem
    rw [← hread field value (List.mem_append_left _ hmem)]
    exact value_oneLine _ _
  · rw [← hread .operator a.operator (by simp)]
    exact value_oneLine _ _

lemma legible_of_read (hlower : LowersWords host)
    (hread : ∀ field value, (field, value) ∈
        plainFields a treeSha ++ [(.operator, a.operator), (.date, today.isoformat)] →
      (parseApprovalDecision host (artifactText a treeSha today)).value field = value)
    (hreal : operatorIsPlaceholder host a.operator = false) : Legible host a treeSha today := by
  have hplain : ∀ field value, (field, value) ∈ plainFields a treeSha →
      (parseApprovalDecision host (artifactText a treeSha today)).value field = value :=
    fun field value hmem => hread field value (List.mem_append_left _ hmem)
  have hoperator := hread .operator a.operator (by simp)
  have hwhole : Whole a treeSha := whole_of_read hread
  rw [value_operator hlower hwhole] at hoperator
  have hdate := hread .date today.isoformat (by simp)
  rw [value_date hlower hwhole] at hdate
  refine ⟨hwhole.1, ?plain, ?blank, hwhole.2, ?signed, ?unsigned, ?date, hreal⟩
  case plain =>
    intro field value hmem hfilled
    have hvalue := hplain field value hmem
    rw [value_plain hlower hwhole hmem, if_neg hfilled] at hvalue
    exact decorated_eq_self_iff.mp hvalue
  case blank =>
    intro field value hmem hempty
    have hvalue := hplain field value hmem
    rw [value_plain hlower hwhole hmem, if_pos hempty] at hvalue
    exact hvalue
  case signed =>
    intro hfilled
    rw [if_neg hfilled] at hoperator
    exact signedAs_eq_self_iff.mp hoperator
  case unsigned =>
    intro hempty
    rw [if_pos hempty] at hoperator
    exact hoperator
  case date =>
    intro d hd
    rw [hd] at hdate
    exact hdate

/-! ### Validation -/

lemma differs_eq_false {expected : Option String} {value : String}
    (h : ∀ v ∈ expected, value = v) : differs expected value = false := by
  cases expected with
  | none => rfl
  | some v => simpa [differs] using h v rfl

lemma validateDecision_eq_nil {d : ApprovalDecision} {e : Expectations} (hfits : e.Fits a treeSha)
    (hpurpose : d.purpose = purposeCheckpoint)
    (hread : ∀ field value, (field, value) ∈ plainFields a treeSha → d.value field = value)
    (hcandidate : a.candidateSha ≠ "") (hstrip : strip a.candidateSha = a.candidateSha)
    (hdate : dateIsValid host d.date = true) :
    validateDecision host d e = [] ↔ operatorIsPlaceholder host d.operator = false := by
  have hspec : d.spec = a.spec := hread .spec a.spec (by simp [plainFields])
  have hphase : d.phase = a.phase := hread .phase a.phase (by simp [plainFields])
  have hrun : d.runId = a.runId := hread .runId a.runId (by simp [plainFields])
  have hgate : d.gateId = a.gateId := hread .gateId a.gateId (by simp [plainFields])
  have hsha : d.candidateSha = a.candidateSha :=
    hread .candidateSha a.candidateSha (by simp [plainFields])
  have htree : d.tree = treeSha := hread .tree treeSha (by simp [plainFields])
  obtain ⟨commit, hcommit, hstripped, hstarts⟩ := hfits.commit
  have hfilled : commit ≠ "" := by
    rintro rfl
    have hprefixed := List.isPrefixOf_iff_prefix.mp hstarts
    exact hcandidate (String.toList_inj.mp (by simpa using hprefixed))
  have hmatches : shaMatches commit a.candidateSha = true := by
    simp [shaMatches, hstripped, hstrip, hstarts, hcandidate, hfilled]
  have hdeclared : differs e.purpose d.purpose = false := by
    refine differs_eq_false fun v hv => ?_
    rw [hfits.purpose] at hv
    rw [hpurpose]
    cases hv
    rfl
  rw [validateDecision, hspec, hphase, hrun, hgate, hsha, htree, hcommit,
    hdeclared, differs_eq_false hfits.spec, differs_eq_false hfits.phase, differs_eq_false hfits.tree,
    differs_eq_false hfits.runId, differs_eq_false hfits.gateId, hdate]
  simp [hmatches]

lemma candidate_filled {scene : ApprovalScene} {s : ControlTables} {row : ApprovalRecord}
    (h : (runApproval host a scene s).store.approvalRows = s.approvalRows ++ [row]) :
    a.candidateSha ≠ "" := by
  rw [runApproval] at h
  split at h
  case h_1 =>
    exact absurd (List.self_eq_append_right.mp h) (List.cons_ne_nil _ _)
  case h_2 hchecked =>
    rintro hempty
    rw [checkArguments, hempty] at hchecked
    split_ifs at hchecked with hplaceholder hshort
    exact hshort (Or.inl (by simp))

end Artifact

/-- An approval that is recorded is read back as it was written, and authorizes the act, if and only
if its texts are legible. -/
theorem recorded_approval_reads_back_iff {host : Host} (hlower : LowersWords host)
    {today : CivilDate} (htoday : (host.fromisoformat today.isoformat).isSome)
    {a : ApprovalArgs} {scene : ApprovalScene} {s : ControlTables} {row : ApprovalRecord}
    (hrecorded : (runApproval host a scene s).store.approvalRows = s.approvalRows ++ [row])
    (treeSha : String) : ReadsBack host a treeSha today ↔ Legible host a treeSha today := by
  have hcandidate : a.candidateSha ≠ "" := candidate_filled hrecorded
  have hdate : dateIsValid host today.isoformat = true := by
    simp [dateIsValid, today.isoformat_ne_empty, today.replaceZ_isoformat, htoday]
  have hvalid : ∀ e : Expectations, e.Fits a treeSha →
      (∀ field value, (field, value) ∈
          plainFields a treeSha ++ [(.operator, a.operator), (.date, today.isoformat)] →
        (parseApprovalDecision host (artifactText a treeSha today)).value field = value) →
      (validateDecision host (parseApprovalDecision host (artifactText a treeSha today)) e = [] ↔
        operatorIsPlaceholder host a.operator = false) := by
    intro e hfits hread
    have hwhole : Whole a treeSha := whole_of_read hread
    have hplain : ∀ field value, (field, value) ∈ plainFields a treeSha →
        (parseApprovalDecision host (artifactText a treeSha today)).value field = value :=
      fun field value hmem => hread field value (List.mem_append_left _ hmem)
    have hoperator := hread .operator a.operator (by simp)
    have hwritten := hread .date today.isoformat (by simp)
    have hsha := hplain .candidateSha a.candidateSha (by simp [plainFields])
    rw [validateDecision_eq_nil hfits (value_purpose hlower hwhole) hplain hcandidate
      (strip_candidate hlower hwhole hsha) (by rw [← hdate, ← hwritten]; rfl)]
    rw [← hoperator]
    rfl
  constructor
  · intro h
    have hsha := h.read .candidateSha a.candidateSha (by simp [plainFields])
    have hstrip := strip_candidate hlower (whole_of_read h.read) hsha
    -- the purpose and the candidate itself are expected, and nothing else
    have hfits : Expectations.Fits
        { purpose := some purposeCheckpoint, candidateSha := some a.candidateSha } a treeSha :=
      { purpose := rfl
        commit := ⟨a.candidateSha, rfl, hstrip, startsWith_self _⟩
        spec := by rintro value ⟨⟩
        phase := by rintro value ⟨⟩
        tree := by rintro value ⟨⟩
        runId := by rintro value ⟨⟩
        gateId := by rintro value ⟨⟩ }
    exact legible_of_read hlower h.read ((hvalid _ hfits h.read).mp (h.valid _ hfits))
  · intro h
    have hread := h.read hlower
    exact ⟨hread, fun e hfits => (hvalid e hfits hread).mpr h.real⟩

/-! ### A signature that is no name -/

def approvalDay : CivilDate where
  year := 2026
  month := 9
  day := 20
  year_range := by decide
  month_range := by decide
  day_range := by decide

/-- A host that knows the day of the approval. -/
def datedHost : Host :=
  { journalHost with
    fromisoformat := fun text => if text = approvalDay.isoformat then
      some ⟨1789862400000000, false⟩ else none }

/-- A recorded approval of a gate by an operator. -/
def approvalBy (operator : String) : ApprovalRecord :=
  { approvalId := "apr-0a", runId := "run-1", gateId := "gate-a", candidateSha := "abcdef1"
    operator := operator, decidedAt := "2026-09-20T10:00:00Z"
    artifactPath := "approvals/nightly/review_approval.md", purpose := "checkpoint"
    decisionJson := "\x7b\x7d" }

lemma approvals_computed :
    (∀ operator ∈ ["dana", "todo"],
      (runApproval datedHost { approveGate "gate-a" with operator := operator } (quietScene "0a")
        twoGates).store.approvalRows = twoGates.approvalRows ++ [approvalBy operator]) ∧
    (∀ field ∈ plainFields (approveGate "gate-a") "f00dfeed",
      OneLine field.2 ∧ decorated field.2 ≠ "" ∧ Plain field.2) ∧
    signedAs "dana" ≠ "" ∧ Signable "dana" ∧
    validateDecision datedHost (parseApprovalDecision datedHost
      (artifactText { approveGate "gate-a" with operator := "todo" } "f00dfeed" approvalDay))
      { purpose := some purposeCheckpoint, candidateSha := some "abcdef1" } = ["operator"] := by
  decide +kernel

lemma lowersWords_datedHost : LowersWords datedHost := fun _ _ => rfl

lemma approval_recorded {operator : String} (h : operator ∈ ["dana", "todo"]) :
    (runApproval datedHost { approveGate "gate-a" with operator := operator } (quietScene "0a")
      twoGates).store.approvalRows = twoGates.approvalRows ++ [approvalBy operator] :=
  approvals_computed.1 operator h

/-- An approval by a name is read back. -/
theorem named_approval_reads_back :
    ReadsBack datedHost { approveGate "gate-a" with operator := "dana" } "f00dfeed" approvalDay := by
  obtain ⟨-, hfields, hsigned, hsignable, -⟩ := approvals_computed
  have hdate : embeddedDate (decorated "dana") = none ∧ OneLine "dana" ∧
      operatorIsPlaceholder datedHost "dana" = false := by decide +kernel
  refine (recorded_approval_reads_back_iff lowersWords_datedHost (by decide +kernel)
    (approval_recorded (List.mem_cons_self)) "f00dfeed").mpr ?_
  exact
    { oneLine := fun field value hmem => (hfields (field, value) hmem).1
      plain := fun field value hmem _ => (hfields (field, value) hmem).2.2
      blank := fun field value hmem hempty => absurd hempty (hfields (field, value) hmem).2.1
      signer := hdate.2.1
      signed := fun _ => hsignable
      unsigned := fun hempty => absurd hempty hsigned
      date := fun d hd => by
        rw [hdate.1] at hd
        cases hd
      real := hdate.2.2 }

/-- An approval by an operator called `todo` is recorded, and the contract refuses the operator. -/
theorem todo_approval_refused :
    (runApproval datedHost { approveGate "gate-a" with operator := "todo" } (quietScene "0a")
        twoGates).store.approvalRows = twoGates.approvalRows ++ [approvalBy "todo"] ∧
      ¬ ReadsBack datedHost { approveGate "gate-a" with operator := "todo" } "f00dfeed"
        approvalDay := by
  refine ⟨approval_recorded (by simp), fun h => ?_⟩
  have hstrip : strip "abcdef1" = "abcdef1" := by decide +kernel
  have hvalid := h.valid { purpose := some purposeCheckpoint, candidateSha := some "abcdef1" }
    { purpose := rfl
      commit := ⟨"abcdef1", rfl, hstrip, startsWith_self _⟩
      spec := by rintro value ⟨⟩
      phase := by rintro value ⟨⟩
      tree := by rintro value ⟨⟩
      runId := by rintro value ⟨⟩
      gateId := by rintro value ⟨⟩ }
  rw [approvals_computed.2.2.2.2] at hvalid
  cases hvalid

end AgenticDynamics.Control
