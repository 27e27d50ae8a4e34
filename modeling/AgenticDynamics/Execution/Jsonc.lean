import AgenticDynamics.Library.JsonReader

/-!
# JSON with comments

The scanner that makes a configuration file with comments and trailing commas into a text for
`json.loads`, and the texts that it is given: the pieces of a JSON text, with comments and trailing
commas among them.
-/

namespace AgenticDynamics.Execution.Jsonc

open Python Python.Json

/-! ### The scanner -/

/-- Where the scanner stands: outside the strings, in a string, after the backslash of an escape,
in a comment of the line or in one of a block. -/
inductive Scanning where
  | outside
  | inString
  | escaped
  | line
  | block

def isCloser (c : Char) : Bool := c = ']' || c = '\x7d'

/-- The next character that is no blank closes an array or an object. -/
def closes (cs : List Char) : Bool := (skipBlanks cs).head?.any isCloser

/-- `_strip_jsonc`, from a place of the text on. -/
def strip : Scanning → List Char → List Char
  | _,         []               => []
  | .inString, c :: cs          =>
    c :: strip (if c = '\\' then .escaped else if c = '"' then .outside else .inString) cs
  | .escaped,  c :: cs          => c :: strip .inString cs
  | .line,     c :: cs          =>
    if c = '\r' ∨ c = '\n' then c :: strip .outside cs else strip .line cs
  | .block,    '*' :: '/' :: cs => strip .outside cs
  | .block,    _ :: cs          => strip .block cs
  | .outside,  '"' :: cs        => '"' :: strip .inString cs
  | .outside,  '/' :: '/' :: cs => strip .line cs
  | .outside,  '/' :: '*' :: cs => strip .block cs
  | .outside,  ',' :: cs        => if closes cs then strip .outside cs else ',' :: strip .outside cs
  | .outside,  c :: cs          => c :: strip .outside cs

def stripJsonc (text : List Char) : List Char := strip .outside text

/-- No string, no comment and no comma starts with the character. -/
def Bland (c : Char) : Prop := c ≠ '"' ∧ c ≠ '/' ∧ c ≠ ','

instance : DecidablePred Bland := fun _ => inferInstanceAs (Decidable (_ ∧ _ ∧ _))

lemma strip_plain {c : Char} (hc : Bland c) (cs : List Char) :
    strip .outside (c :: cs) = c :: strip .outside cs := by
  obtain ⟨hquote, hslash, hcomma⟩ := hc
  rw [strip]
  · exact hquote
  · exact fun _ h _ => hslash h
  · exact fun _ h _ => hslash h
  · exact hcomma

lemma isBlank_plain {c : Char} (h : Json.isBlank c = true) : Bland c := by
  simp only [Json.isBlank, Bool.or_eq_true, decide_eq_true_eq] at h
  obtain ((rfl | rfl) | rfl) | rfl := h <;> decide

lemma closes_blank {c : Char} (h : Json.isBlank c = true) (cs : List Char) :
    closes (c :: cs) = closes cs := by
  simp [closes, skipBlanks, h]

lemma closes_cons {c : Char} (h : Json.isBlank c = false) (cs : List Char) :
    closes (c :: cs) = isCloser c := by
  simp [closes, skipBlanks, h]

lemma strip_line {body : List Char} (hbody : ∀ c ∈ body, c ≠ '\r' ∧ c ≠ '\n') (cs : List Char) :
    strip .line (body ++ cs) = strip .line cs := by
  induction body with
  | nil => rfl
  | cons c body ih =>
    have hc := hbody c (by simp)
    rw [List.cons_append, strip, if_neg (by tauto), ih fun d hd => hbody d (by simp [hd])]

lemma strip_block {body : List Char} (hbody : ¬ ['*', '/'] <:+: body) (cs : List Char) :
    strip .block (body ++ '*' :: '/' :: cs) = strip .outside cs := by
  induction body with
  | nil => simp [strip]
  | cons c body ih =>
    have htail : ¬ ['*', '/'] <:+: body :=
      fun h => hbody (h.trans (List.suffix_cons c body).isInfix)
    rw [List.cons_append, strip, ih htail]
    intro rest hc heq
    subst hc
    cases body with
    | nil => simp at heq
    | cons d body =>
      obtain ⟨rfl, -⟩ := List.cons.inj heq
      exact hbody ⟨[], body, rfl⟩

/-! ### The pieces of a text -/

/-- A character of a string, or an escape. -/
inductive Stroke where
  | char (c : Char) (h : c ≠ '"' ∧ c ≠ '\\')
  | escape (c : Char)

def Stroke.text : Stroke → List Char
  | .char c _ => [c]
  | .escape c => ['\\', c]

/-- A piece of a JSON text with comments: a character outside the strings and comments, a string,
a comma, and the comments. A comment of the line has the end of the line with it. -/
inductive Piece where
  | char (c : Char) (h : Bland c)
  | literal (body : List Stroke)
  | comma
  | line (body : List Char) (h : ∀ c ∈ body, c ≠ '\r' ∧ c ≠ '\n') (eol : Char)
      (heol : eol = '\r' ∨ eol = '\n')
  | block (body : List Char) (h : ¬ ['*', '/'] <:+: body)

def Piece.text : Piece → List Char
  | .char c _         => [c]
  | .literal body     => '"' :: (body.flatMap Stroke.text ++ ['"'])
  | .comma            => [',']
  | .line body _ e _  => '/' :: '/' :: (body ++ [e])
  | .block body _     => '/' :: '*' :: (body ++ ['*', '/'])

/-- What is left of a piece without the comments. -/
def Piece.bare : Piece → List Char
  | .line _ _ e _ => [e]
  | .block _ _    => []
  | p             => p.text

/-- A piece that may stand between a trailing comma and the bracket. -/
def Piece.gap : Piece → Bool
  | .char c _     => Json.isBlank c
  | .line _ _ _ _ => true
  | .block _ _    => true
  | _             => false

def Piece.blank : Piece → Bool
  | .char c _ => Json.isBlank c
  | _         => false

def Piece.closer : Piece → Bool
  | .char c _ => isCloser c
  | _         => false

/-- A comma before these pieces is a trailing one. -/
def closing (ps : List Piece) : Bool := (ps.dropWhile Piece.gap).head?.any Piece.closer

/-- A comma before these pieces has nothing but blanks between it and the bracket. -/
def closingAtOnce (ps : List Piece) : Bool := (ps.dropWhile Piece.blank).head?.any Piece.closer

/-- The text of the pieces without the comments and without some of the commas. -/
def without (dropped : List Piece → Bool) : List Piece → List Char
  | []           => []
  | .comma :: ps => if dropped ps then without dropped ps else ',' :: without dropped ps
  | p :: ps      => p.bare ++ without dropped ps

/-- A JSON text with comments: the pieces, and the comment of a last line that has no end. -/
structure Commented where
  pieces : List Piece
  remark : Option {body : List Char // ∀ c ∈ body, c ≠ '\r' ∧ c ≠ '\n'} := none

def Commented.text (d : Commented) : List Char :=
  d.pieces.flatMap Piece.text ++
    match d.remark with
    | none      => []
    | some body => '/' :: '/' :: body.1

/-- The text without the comments and the trailing commas. -/
def Commented.json (d : Commented) : List Char := without closing d.pieces

lemma strip_stroke (s : Stroke) (cs : List Char) :
    strip .inString (s.text ++ cs) = s.text ++ strip .inString cs := by
  cases s with
  | char c h => simp [Stroke.text, strip, h.1, h.2]
  | escape c => simp [Stroke.text, strip]

lemma strip_literal (body : List Stroke) (cs : List Char) :
    strip .inString (body.flatMap Stroke.text ++ '"' :: cs) =
      body.flatMap Stroke.text ++ '"' :: strip .outside cs := by
  induction body with
  | nil => simp [strip]
  | cons s body ih => simp [strip_stroke, ih]

lemma strip_piece {p : Piece} (hp : p ≠ .comma) (cs : List Char) :
    strip .outside (p.text ++ cs) = p.bare ++ strip .outside cs := by
  cases p with
  | char c h => exact strip_plain h cs
  | literal body => simp [Piece.text, Piece.bare, strip, strip_literal]
  | comma => exact absurd rfl hp
  | line body h e he =>
    rw [show (Piece.line body h e he).text ++ cs = '/' :: '/' :: (body ++ e :: cs) by
      simp [Piece.text], strip, strip_line h, strip, if_pos he]
    rfl
  | block body h =>
    rw [show (Piece.block body h).text ++ cs = '/' :: '*' :: (body ++ '*' :: '/' :: cs) by
      simp [Piece.text], strip, strip_block h]
    rfl

lemma closes_text (d : Commented) : closes d.text = closingAtOnce d.pieces := by
  obtain ⟨pieces, remark⟩ := d
  induction pieces with
  | nil => cases remark <;> rfl
  | cons p ps ih =>
    cases p with
    | char c h =>
      change closes (c :: Commented.text ⟨ps, remark⟩) = _
      cases hc : Json.isBlank c with
      | true => rw [closes_blank hc, ih]; simp [closingAtOnce, Piece.blank, hc]
      | false => rw [closes_cons hc]; simp [closingAtOnce, Piece.blank, Piece.closer, hc]
    | _ => rfl

lemma strip_text (d : Commented) : stripJsonc d.text = without closingAtOnce d.pieces := by
  obtain ⟨pieces, remark⟩ := d
  induction pieces with
  | nil =>
    cases remark with
    | none => rfl
    | some body =>
      have hline := strip_line body.2 []
      rw [List.append_nil] at hline
      simp [stripJsonc, Commented.text, without, strip, hline]
  | cons p ps ih =>
    have htext : Commented.text ⟨p :: ps, remark⟩ = p.text ++ Commented.text ⟨ps, remark⟩ := by
      simp [Commented.text]
    rw [htext]
    by_cases hp : p = .comma
    · subst hp
      change strip .outside (',' :: Commented.text ⟨ps, remark⟩) = _
      rw [strip, closes_text ⟨ps, remark⟩, without]
      exact if_congr Iff.rfl ih (congrArg _ ih)
    · rw [stripJsonc, strip_piece hp]
      cases p with
      | comma => exact absurd rfl hp
      | _ => exact congrArg _ ih

end AgenticDynamics.Execution.Jsonc
