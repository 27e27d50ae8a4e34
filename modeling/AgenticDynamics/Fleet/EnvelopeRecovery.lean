import AgenticDynamics.Library.JsonReader
import AgenticDynamics.Library.Lines
import AgenticDynamics.Fleet.Launch

/-!
# The envelope of a child's run

A child prints its result as an indented JSON object after whatever it has written before. The scan
from the last line on finds that object: no later line opens a text that reads as a document.
-/

namespace AgenticDynamics.Fleet.Launch

open Python Python.Json

def parseChildEnvelope (rt : Runtime) (stdout : String) : Except String (Option (Dict Json)) :=
  if stdout = "" then .ok none else scanEnvelope rt (splitlines stdout)

/-- `json.dumps(value, indent=2)`. -/
def dumpsIndented (fr : FloatReader) (value : Json) : String := String.ofList (pretty fr 0 value)

/-- The preceding lines, each with its line end, and the printed result. -/
def childStdout (fr : FloatReader) (preceding : List String) (result : Dict Json)
    (ending : String) : String :=
  String.join (preceding.map (· ++ "\n")) ++ (dumpsIndented fr (.obj result) ++ ending)

/-- `json.loads` reads what the decoder reads, and refuses the rest. -/
structure Decodes (fr : FloatReader) (rt : Runtime) : Prop where
  reads : ∀ {text value}, read fr text.toList = some value → rt.loads text = .ok value
  refuses : ∀ {text}, read fr text.toList = none →
    ∃ message, rt.loads text = .error ("JSONDecodeError", message)

variable {fr : FloatReader} {rt : Runtime}

/-! ### The lines of the printed text -/

lemma splitlinesFrom_break (cs line : List Char) :
    splitlinesFrom ('\n' :: cs) line = String.ofList line.reverse :: splitlinesFrom cs [] := by
  rw [splitlinesFrom.eq_3 _ _ _ (by intro _ h; exact absurd h (by decide)), if_pos (by decide)]

lemma splitlinesFrom_split (l rest line : List Char) :
    splitlinesFrom (l ++ '\n' :: rest) line =
      splitlinesFrom (l ++ ['\n']) line ++ splitlinesFrom rest [] := by
  have hstep {c : Char} {l cs line : List Char}
      (hpair : ∀ rest, c = '\r' → l = '\n' :: rest → False) (hlone : ¬ (c = '\r' ∧ l = [])) :
      splitlinesFrom (c :: (l ++ '\n' :: cs)) line =
        if isLineBreak c then String.ofList line.reverse :: splitlinesFrom (l ++ '\n' :: cs) []
        else splitlinesFrom (l ++ '\n' :: cs) (c :: line) := by
    refine splitlinesFrom.eq_3 _ _ _ fun rest hc hl => ?_
    cases l with
    | nil      => exact hlone ⟨hc, rfl⟩
    | cons d l => exact hpair l hc (by rw [(List.cons.inj hl).1])
  fun_induction splitlinesFrom l line with
  | case1 line hempty => simp [splitlinesFrom_break, splitlinesFrom]
  | case2 line hempty => simp [splitlinesFrom_break, splitlinesFrom]
  | case3 l line ih =>
    simp only [List.cons_append, splitlinesFrom]
    rw [ih]
  | case4 c l line hpair hbreak ih =>
    by_cases hlone : c = '\r' ∧ l = []
    · obtain ⟨rfl, rfl⟩ := hlone
      simp [splitlinesFrom]
    · rw [List.cons_append, hstep hpair hlone, List.cons_append, hstep hpair hlone, if_pos hbreak,
        if_pos hbreak, ih, List.cons_append]
  | case5 c l line hpair hbreak ih =>
    by_cases hlone : c = '\r' ∧ l = []
    · exact absurd (by rw [hlone.1]; decide) hbreak
    · rw [List.cons_append, hstep hpair hlone, List.cons_append, hstep hpair hlone, if_neg hbreak,
        if_neg hbreak, ih]

lemma splitlines_preceding (preceding : List String) (text : String) :
    ∃ lines, splitlines (String.join (preceding.map (· ++ "\n")) ++ text) =
      lines ++ splitlines text := by
  induction preceding with
  | nil => exact ⟨[], by simp⟩
  | cons first preceding ih =>
    obtain ⟨lines, hlines⟩ := ih
    refine ⟨splitlines (first ++ "\n") ++ lines, ?_⟩
    have htext : (String.join ((first :: preceding).map (· ++ "\n")) ++ text).toList =
        first.toList ++ '\n' :: (String.join (preceding.map (· ++ "\n")) ++ text).toList := by
      simp
    have hfirst : (first ++ "\n").toList = first.toList ++ ['\n'] := by simp
    rw [splitlines, htext, splitlinesFrom_split, ← hfirst, List.append_assoc, ← hlines]
    rfl

section Text

variable {body : List Char} {c : Char}

/-- A text of printable characters and new lines, its last character being printable. -/
def Clean (body : List Char) (c : Char) : Prop :=
  (∀ d ∈ body, d = '\n' ∨ Printable d) ∧ Printable c

lemma not_break {c : Char} (h : Printable c) : isLineBreak c = false := by
  obtain ⟨hlow, hhigh⟩ := h
  simp only [isLineBreak, Bool.or_eq_false_iff, Bool.and_eq_false_iff, decide_eq_false_iff_not,
    beq_eq_false_iff_ne]
  omega

lemma splitlinesFrom_printable (h : Printable c) (cs line : List Char) :
    splitlinesFrom (c :: cs) line = splitlinesFrom cs (c :: line) := by
  have hbreak := not_break h
  have hcr : c ≠ '\r' := by
    rintro rfl
    exact absurd hbreak (by decide)
  rw [splitlinesFrom.eq_3 _ _ _ (by intro _ h; exact absurd h hcr), if_neg (by simp [hbreak])]

lemma splitlinesFrom_ending (h : Clean body c) (line : List Char) :
    splitlinesFrom (body ++ [c, '\n']) line = splitlinesFrom (body ++ [c]) line := by
  obtain ⟨hbody, hc⟩ := h
  induction body generalizing line with
  | nil =>
    simp only [List.nil_append, splitlinesFrom_printable hc, splitlinesFrom_break]
    simp [splitlinesFrom]
  | cons d body ih =>
    have ih' := fun line => ih line fun d hd => hbody d (List.mem_cons_of_mem _ hd)
    rw [List.cons_append, List.cons_append]
    obtain rfl | hd := hbody d List.mem_cons_self
    · rw [splitlinesFrom_break, splitlinesFrom_break, ih']
    · rw [splitlinesFrom_printable hd, splitlinesFrom_printable hd, ih']

lemma splitlinesFrom_ne_nil (h : Clean body c) (line : List Char) :
    splitlinesFrom (body ++ [c]) line ≠ [] := by
  obtain ⟨hbody, hc⟩ := h
  induction body generalizing line with
  | nil => simp [splitlinesFrom_printable hc, splitlinesFrom]
  | cons d body ih =>
    rw [List.cons_append]
    obtain rfl | hd := hbody d List.mem_cons_self
    · rw [splitlinesFrom_break]
      exact List.cons_ne_nil _ _
    · rw [splitlinesFrom_printable hd]
      exact ih _ fun d hd => hbody d (List.mem_cons_of_mem _ hd)

lemma intercalate_splitlinesFrom (h : Clean body c) (line : List Char) :
    "\n".intercalate (splitlinesFrom (body ++ [c]) line) =
      String.ofList (line.reverse ++ (body ++ [c])) := by
  have hclean := h
  obtain ⟨hbody, hc⟩ := h
  induction body generalizing line with
  | nil => simp [splitlinesFrom_printable hc, splitlinesFrom]
  | cons d body ih =>
    have hrest : Clean body c := ⟨fun d hd => hbody d (List.mem_cons_of_mem _ hd), hc⟩
    have ih' := fun line => ih line hrest hrest.1
    rw [List.cons_append]
    obtain rfl | hd := hbody d List.mem_cons_self
    · rw [splitlinesFrom_break,
        String.intercalate_cons_of_ne_nil (splitlinesFrom_ne_nil hrest []), ih']
      simp [String.append_assoc]
    · rw [splitlinesFrom_printable hd, ih']
      simp

lemma mem_lineTails_of_suffix (h : Clean body c) (line : List Char) {lines : List String}
    (hne : lines ≠ []) (hsuffix : lines <:+ (splitlinesFrom (body ++ [c]) line).tail) :
    ("\n".intercalate lines).toList ∈ lineTails (body ++ [c]) := by
  obtain ⟨hbody, hc⟩ := h
  induction body generalizing line with
  | nil =>
    simp only [List.nil_append, splitlinesFrom_printable hc] at hsuffix
    simp [splitlinesFrom] at hsuffix
    exact absurd hsuffix hne
  | cons d body ih =>
    have hrest : Clean body c := ⟨fun d hd => hbody d (List.mem_cons_of_mem _ hd), hc⟩
    rw [List.cons_append] at hsuffix ⊢
    obtain rfl | hd := hbody d List.mem_cons_self
    · rw [splitlinesFrom_break, List.tail_cons] at hsuffix
      rw [lineTails, if_pos rfl, List.mem_cons]
      obtain ⟨first, more, hlines⟩ := List.exists_cons_of_ne_nil (splitlinesFrom_ne_nil hrest [])
      rw [hlines] at hsuffix
      obtain hwhole | htail := List.suffix_cons_iff.mp hsuffix
      · left
        rw [hwhole, ← hlines, intercalate_splitlinesFrom hrest]
        simp
      · right
        refine ih [] ?_ hrest.1
        rwa [hlines]
    · rw [splitlinesFrom_printable hd] at hsuffix
      rw [mem_lineTails_cons hd]
      exact ih _ hsuffix hrest.1

end Text

/-! ### The scan -/

lemma scanEnvelope_append {lines : List String} {envelope : Dict Json}
    (h : scanEnvelope rt lines = .ok (some envelope)) (earlier : List String) :
    scanEnvelope rt (earlier ++ lines) = .ok (some envelope) := by
  induction earlier with
  | nil => exact h
  | cons line earlier ih =>
    rw [List.cons_append, scanEnvelope, ih]
    rfl

lemma scanEnvelope_none {lines : List String}
    (h : ∀ more ≠ [], more <:+ lines → envelopeOf rt more = .ok none) :
    scanEnvelope rt lines = .ok none := by
  induction lines with
  | nil => rfl
  | cons line lines ih =>
    have hrest := ih fun more hne hmore => h more hne (hmore.trans (List.suffix_cons _ _))
    rw [scanEnvelope, hrest]
    simp only [bind, Except.bind]
    split_ifs
    · exact h _ (List.cons_ne_nil _ _) List.suffix_rfl
    · rfl

lemma envelopeOf_unreadable (hrt : Decodes fr rt) {lines : List String}
    (h : read fr ("\n".intercalate lines).toList = none) : envelopeOf rt lines = .ok none := by
  obtain ⟨message, hloads⟩ := hrt.refuses h
  rw [envelopeOf, hloads]
  rfl

variable (fr) in
lemma pretty_result {fields : Dict Json} (hne : fields ≠ []) :
    ∃ middle body, pretty fr 0 (.obj fields) = '\x7b' :: '\n' :: middle ∧
      pretty fr 0 (.obj fields) = body ++ ['\x7d'] ∧ Clean body '\x7d' := by
  obtain ⟨⟨key, value⟩, fields, rfl⟩ := List.exists_cons_of_ne_nil hne
  have hend : pretty fr 0 (.obj ((key, value) :: fields)) =
      '\x7b' :: (newline 1 ++ (quote key ++ (':' :: ' ' :: (pretty fr 1 value ++
        (prettyFields fr 1 fields ++ newline 0))))) ++ ['\x7d'] := by
    simp [pretty]
  refine ⟨_, _, rfl, hend, fun d hd => ?_, by decide⟩
  have hchars : d ∈ pretty fr 0 (.obj ((key, value) :: fields)) := by
    rw [hend]
    exact List.mem_append_left _ hd
  exact pretty_chars _ 0 d hchars

lemma scanEnvelope_result (hrt : Decodes fr rt) {fields : Dict Json}
    (hdistinct : Distinct (.obj fields)) (hok : (Dict.get? "ok" fields).isSome) :
    scanEnvelope rt (splitlines (dumpsIndented fr (.obj fields))) = .ok (some fields) := by
  have hne : fields ≠ [] := by
    rintro rfl
    cases hok
  obtain ⟨middle, body, hstart, hend, hclean⟩ := pretty_result fr hne
  have htext : splitlines (dumpsIndented fr (.obj fields)) =
      splitlinesFrom (body ++ ['\x7d']) [] := by
    rw [dumpsIndented, splitlines, String.toList_ofList, hend]
  have hlines : splitlinesFrom (body ++ ['\x7d']) [] =
      "\x7b" :: (splitlinesFrom (body ++ ['\x7d']) []).tail := by
    rw [← hend, hstart, splitlinesFrom_printable (by decide), splitlinesFrom_break]
    rfl
  have hrest : scanEnvelope rt (splitlinesFrom (body ++ ['\x7d']) []).tail = .ok none := by
    refine scanEnvelope_none fun more hne hmore => envelopeOf_unreadable hrt ?_
    have htail := mem_lineTails_of_suffix hclean [] hne hmore
    rw [← hend] at htail
    simpa using unreadable_lines (.obj fields) 0 hdistinct _ htail []
  have hread : rt.loads ("\n".intercalate (splitlinesFrom (body ++ ['\x7d']) [])) =
      .ok (.obj fields) := by
    refine hrt.reads ?_
    rw [intercalate_splitlinesFrom hclean, String.toList_ofList, ← hend]
    exact read_pretty hdistinct 0
  rw [htext, hlines, scanEnvelope, hrest, ← hlines]
  have hbrace : strip "\x7b" = "\x7b" := by decide
  simp only [bind, Except.bind, if_pos hbrace, envelopeOf, hread, if_pos hok]

/-- The result that a child prints last is what both scans find. -/
theorem envelope_recovered (hrt : Decodes fr rt) (preceding : List String) (fields : Dict Json)
    (ending : String) (hdistinct : Distinct (.obj fields)) (hok : (Dict.get? "ok" fields).isSome)
    (hending : ending = "" ∨ ending = "\n") :
    parseChildEnvelope rt (childStdout fr preceding fields ending) = .ok (some fields) ∧
      parseEnvelope rt (childStdout fr preceding fields ending) = .ok (some fields) := by
  have hne : fields ≠ [] := by
    rintro rfl
    cases hok
  obtain ⟨middle, body, hstart, hend, hclean⟩ := pretty_result fr hne
  have hprinted : splitlines (dumpsIndented fr (.obj fields) ++ ending) =
      splitlines (dumpsIndented fr (.obj fields)) := by
    obtain rfl | rfl := hending
    · rw [String.append_empty]
    · rw [splitlines, splitlines, String.toList_append, dumpsIndented, String.toList_ofList, hend]
      simpa using splitlinesFrom_ending hclean []
  have hnonempty : childStdout fr preceding fields ending ≠ "" := by
    intro h
    have hlist := congrArg String.toList h
    simp [childStdout, dumpsIndented, hend] at hlist
  obtain ⟨lines, hsplit⟩ := splitlines_preceding preceding
    (dumpsIndented fr (.obj fields) ++ ending)
  have hscan : scanEnvelope rt (splitlines (childStdout fr preceding fields ending)) =
      .ok (some fields) := by
    rw [childStdout, hsplit, hprinted]
    exact scanEnvelope_append (scanEnvelope_result hrt hdistinct hok) lines
  exact ⟨(if_neg hnonempty).trans hscan, (if_neg hnonempty).trans hscan⟩

/-- A runtime that decodes texts of exact fractions. -/
def decodingRuntime : Runtime where
  loads text :=
    match read .fraction text.toList with
    | some value => .ok value
    | none       => .error ("JSONDecodeError", "Expecting value")
  repr _ := ""
  upper := id
  lower := id

lemma decodes_decodingRuntime : Decodes .fraction decodingRuntime where
  reads h := by simp [decodingRuntime, h]
  refuses h := ⟨"Expecting value", by simp [decodingRuntime, h]⟩

/-- A phase with a result of its own, after a line that reads as an earlier envelope. -/
theorem nested_envelope_recovered :
    let phase : Json := .obj [("ok", .bool false)]
    let result : Dict Json := [("ok", .bool true), ("phases", .arr [phase, phase])]
    let stdout := childStdout .fraction ["\x7b", "\x7b\"ok\": 1\x7d"] result "\n"
    parseChildEnvelope decodingRuntime stdout = .ok (some result) ∧
      parseEnvelope decodingRuntime stdout = .ok (some result) :=
  envelope_recovered decodes_decodingRuntime _ _ _
    (by simp [Distinct, DistinctFields, DistinctItems]) rfl (.inr rfl)

end AgenticDynamics.Fleet.Launch
