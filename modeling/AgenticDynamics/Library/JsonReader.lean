import AgenticDynamics.Library.JsonText

/-!
# Reading a JSON document

The decoder of `json.loads` and the indented text of `json.dumps(value, indent=2)`. A document is
read back from its indented text, whatever comes after it; and nothing is read from the text at the
start of any of its later lines, since what stands there is either no document or one that the rest
of the text follows.
-/

namespace Python.Json

/-! ### Numbers -/

def takeSign : List Char → List Char × List Char
  | '-' :: cs => (['-'], cs)
  | cs        => ([], cs)

def takeDigits (cs : List Char) : List Char × List Char :=
  (cs.takeWhile Char.isDigit, cs.dropWhile Char.isDigit)

def takeWhole : List Char → List Char × List Char
  | '0' :: cs => (['0'], cs)
  | cs        => takeDigits cs

def takeFraction : List Char → List Char × List Char
  | '.' :: cs =>
    match takeDigits cs with
    | ([], _)    => ([], '.' :: cs)
    | (ds, rest) => ('.' :: ds, rest)
  | cs        => ([], cs)

def takeExponentSign : List Char → List Char × List Char
  | '+' :: cs => (['+'], cs)
  | '-' :: cs => (['-'], cs)
  | cs        => ([], cs)

def takeExponent : List Char → List Char × List Char
  | []      => ([], [])
  | e :: cs =>
    if e = 'e' ∨ e = 'E' then
      match takeDigits (takeExponentSign cs).2 with
      | ([], _)    => ([], e :: cs)
      | (ds, rest) => (e :: ((takeExponentSign cs).1 ++ ds), rest)
    else ([], e :: cs)

/-- `NUMBER_RE`: the text of the number, whether it is one of a float, and what comes after it. -/
def matchNumber (cs : List Char) : Option (List Char × Bool × List Char) :=
  let (sign, cs) := takeSign cs
  let (whole, cs) := takeWhole cs
  let (fraction, cs) := takeFraction cs
  let (exponent, cs) := takeExponent cs
  if whole = [] then none
  else some (sign ++ (whole ++ (fraction ++ exponent)), !(fraction ++ exponent).isEmpty, cs)

/-- `int(text)`. -/
def intOfText : List Char → ℤ
  | '-' :: ds => -Nat.ofDigitChars 10 ds 0
  | ds        => Nat.ofDigitChars 10 ds 0

def Digits (ds : List Char) : Prop := ds ≠ [] ∧ ∀ c ∈ ds, c.isDigit = true

def Whole (whole : List Char) : Prop :=
  whole = ['0'] ∨ Digits whole ∧ ∀ c ∈ whole.head?, c ≠ '0'

def Fraction (fraction : List Char) : Prop :=
  fraction = [] ∨ ∃ ds, fraction = '.' :: ds ∧ Digits ds

def Exponent (exponent : List Char) : Prop :=
  exponent = [] ∨ ∃ e sign ds, exponent = e :: (sign ++ ds) ∧ (e = 'e' ∨ e = 'E') ∧
    sign ∈ [[], ['+'], ['-']] ∧ Digits ds

def Ends (rest : List Char) : Prop :=
  ∀ c ∈ rest.head?, c.isDigit = false ∧ c ≠ '.' ∧ c ≠ 'e' ∧ c ≠ 'E'

lemma ends_nil : Ends [] := fun _ h => by cases h

lemma ends_cons {c : Char} {rest : List Char}
    (h : c.isDigit = false ∧ c ≠ '.' ∧ c ≠ 'e' ∧ c ≠ 'E') : Ends (c :: rest) := by
  intro c' h'
  cases h'
  exact h

lemma takeDigits_append {ds rest : List Char} (hds : ∀ c ∈ ds, c.isDigit = true)
    (hrest : ∀ c ∈ rest.head?, c.isDigit = false) : takeDigits (ds ++ rest) = (ds, rest) := by
  have hstop : rest.takeWhile Char.isDigit = [] ∧ rest.dropWhile Char.isDigit = rest := by
    cases rest with
    | nil => exact ⟨rfl, rfl⟩
    | cons c rest =>
      have hc := hrest c rfl
      exact ⟨List.takeWhile_cons_of_neg (by simp [hc]), List.dropWhile_cons_of_neg (by simp [hc])⟩
  rw [takeDigits, List.takeWhile_append_of_pos hds, List.dropWhile_append_of_pos hds, hstop.1,
    hstop.2, List.append_nil]

lemma takeWhole_append {whole rest : List Char} (hwhole : Whole whole)
    (hrest : ∀ c ∈ rest.head?, c.isDigit = false) : takeWhole (whole ++ rest) = (whole, rest) := by
  obtain rfl | ⟨⟨hne, hds⟩, hhead⟩ := hwhole
  · rfl
  · cases whole with
    | nil => exact absurd rfl hne
    | cons c cs =>
      have hc : c ≠ '0' := hhead c rfl
      rw [List.cons_append, takeWhole.eq_2 _ (by intro _ h; exact hc (List.cons.inj h).1),
        ← List.cons_append, takeDigits_append hds hrest]

lemma takeFraction_append {fraction rest : List Char} (hfraction : Fraction fraction)
    (hrest : ∀ c ∈ rest.head?, c.isDigit = false ∧ c ≠ '.') :
    takeFraction (fraction ++ rest) = (fraction, rest) := by
  obtain rfl | ⟨ds, rfl, hne, hds⟩ := hfraction
  · cases rest with
    | nil => rfl
    | cons c rest =>
      have hc : c ≠ '.' := (hrest c rfl).2
      exact takeFraction.eq_2 _ (by intro _ h; exact hc (List.cons.inj h).1)
  · rw [List.cons_append, takeFraction, takeDigits_append hds fun c h => (hrest c h).1]
    cases ds with
    | nil => exact absurd rfl hne
    | cons d ds => rfl

lemma takeExponentSign_append {sign ds : List Char} (hsign : sign ∈ [[], ['+'], ['-']])
    (hds : Digits ds) (rest : List Char) :
    takeExponentSign (sign ++ (ds ++ rest)) = (sign, ds ++ rest) := by
  simp only [List.mem_cons, List.not_mem_nil, or_false] at hsign
  obtain rfl | rfl | rfl := hsign
  · cases ds with
    | nil => exact absurd rfl hds.1
    | cons d ds =>
      have hd := hds.2 d List.mem_cons_self
      exact takeExponentSign.eq_3 _
        (by intro _ h; exact ne_of_isDigit hd (by decide) (List.cons.inj h).1)
        (by intro _ h; exact ne_of_isDigit hd (by decide) (List.cons.inj h).1)
  · rfl
  · rfl

lemma takeExponent_append {exponent rest : List Char} (hexponent : Exponent exponent)
    (hrest : Ends rest) : takeExponent (exponent ++ rest) = (exponent, rest) := by
  obtain rfl | ⟨e, sign, ds, rfl, he, hsign, hds⟩ := hexponent
  · cases rest with
    | nil => rfl
    | cons c rest =>
      obtain ⟨-, -, hc⟩ := hrest c rfl
      rw [List.nil_append, takeExponent, if_neg (by tauto)]
  · rw [List.cons_append, List.append_assoc, takeExponent, if_pos he,
      takeExponentSign_append hsign hds, takeDigits_append hds.2 fun c h => (hrest c h).1]
    cases ds with
    | nil => exact absurd rfl hds.1
    | cons d ds => rfl

lemma matchNumber_append {sign whole fraction exponent rest : List Char}
    (hsign : sign = [] ∨ sign = ['-']) (hwhole : Whole whole) (hfraction : Fraction fraction)
    (hexponent : Exponent exponent) (hrest : Ends rest) :
    matchNumber (sign ++ (whole ++ (fraction ++ exponent)) ++ rest) =
      some (sign ++ (whole ++ (fraction ++ exponent)), !(fraction ++ exponent).isEmpty, rest) := by
  have hdigit : whole ≠ [] ∧ ∀ c ∈ whole, c.isDigit = true := by
    obtain rfl | ⟨hds, -⟩ := hwhole
    · exact ⟨by simp, by simp⟩
    · exact hds
  have hstart : ∀ c ∈ (exponent ++ rest).head?, c.isDigit = false ∧ c ≠ '.' := by
    obtain rfl | ⟨e, es, ds, rfl, he, -⟩ := hexponent
    · exact fun c h => ⟨(hrest c h).1, (hrest c h).2.1⟩
    · intro c h
      cases h
      obtain rfl | rfl := he <;> decide
  have hpoint : ∀ c ∈ (fraction ++ (exponent ++ rest)).head?, c.isDigit = false := by
    obtain rfl | ⟨ds, rfl, -⟩ := hfraction
    · exact fun c h => (hstart c h).1
    · intro c h
      cases h
      rfl
  have hsigned : takeSign (sign ++ (whole ++ (fraction ++ (exponent ++ rest)))) =
      (sign, whole ++ (fraction ++ (exponent ++ rest))) := by
    obtain rfl | rfl := hsign
    · cases whole with
      | nil => exact absurd rfl hdigit.1
      | cons c cs =>
        have hc := hdigit.2 c List.mem_cons_self
        exact takeSign.eq_2 _
          (by intro _ h; exact ne_of_isDigit hc (by decide) (List.cons.inj h).1)
    · rfl
  simp only [matchNumber, List.append_assoc, hsigned, takeWhole_append hwhole hpoint,
    takeFraction_append hfraction hstart, takeExponent_append hexponent hrest, if_neg hdigit.1]

lemma toDigits_head {n : ℕ} (h : 0 < n) : ∀ c ∈ (Nat.toDigits 10 n).head?, c ≠ '0' := by
  induction n using Nat.strong_induction_on with
  | _ n ih =>
    intro c hc
    by_cases hsmall : n < 10
    · rw [Nat.toDigits_of_lt_base hsmall] at hc
      cases hc
      interval_cases n <;> decide
    · rw [Nat.toDigits_of_base_le (by decide) (by omega)] at hc
      have hhigh : (Nat.toDigits 10 (n / 10)).head? = some c := by
        cases hdigits : Nat.toDigits 10 (n / 10) with
        | nil => exact absurd hdigits Nat.toDigits_ne_nil
        | cons d ds =>
          rw [hdigits] at hc
          exact hc
      exact ih (n / 10) (by omega) (by omega) c hhigh

lemma whole_toDigits (n : ℕ) : Whole (Nat.toDigits 10 n) := by
  cases n with
  | zero   => exact .inl (by decide)
  | succ n =>
    exact .inr ⟨⟨Nat.toDigits_ne_nil, fun _ => isDigit_of_mem⟩, toDigits_head (by omega)⟩

lemma matchNumber_intText (n : ℤ) {rest : List Char} (hrest : Ends rest) :
    matchNumber (intText n ++ rest) = some (intText n, false, rest) := by
  cases n with
  | ofNat n =>
    simpa [intText] using matchNumber_append (.inl rfl) (whole_toDigits n) (.inl rfl) (.inl rfl)
      hrest
  | negSucc n =>
    simpa [intText] using matchNumber_append (.inr rfl) (whole_toDigits (n + 1)) (.inl rfl)
      (.inl rfl) hrest

lemma intOfText_intText (n : ℤ) : intOfText (intText n) = n := by
  cases n with
  | ofNat n =>
    have hplain : ∀ ds, Nat.toDigits 10 n ≠ '-' :: ds := by
      intro ds h
      have hmem : '-' ∈ Nat.toDigits 10 n := by rw [h]; exact List.mem_cons_self
      exact absurd (isDigit_of_mem hmem) (by decide)
    rw [intText, intOfText.eq_2 _ hplain, Nat.ofDigitChars_ten_toDigits]
    rfl
  | negSucc n =>
    rw [intText, intOfText, Nat.ofDigitChars_ten_toDigits]
    rfl

/-! ### Floats -/

def nanText : List Char := ['N', 'a', 'N']

def infinityText : List Char := ['I', 'n', 'f', 'i', 'n', 'i', 't', 'y']

/-- `float(text)` beside `float.__repr__`: the text of a float that is finite is a number with a
fraction or an exponent, and it is read as that float. -/
structure FloatReader extends FloatText where
  parse : List Char → PyFloat
  parse_text : ∀ q, parse (text (.finite q)) = .finite q
  grammar : ∀ q, ∃ sign whole fraction exponent,
    text (.finite q) = sign ++ (whole ++ (fraction ++ exponent)) ∧ (sign = [] ∨ sign = ['-']) ∧
      Whole whole ∧ Fraction fraction ∧ Exponent exponent ∧ fraction ++ exponent ≠ []
  nan : text .nan = nanText
  inf : text (.inf false) = infinityText
  negInf : text (.inf true) = '-' :: infinityText

lemma FloatReader.match_text (fr : FloatReader) (q : ℚ) {rest : List Char} (hrest : Ends rest) :
    matchNumber (fr.text (.finite q) ++ rest) = some (fr.text (.finite q), true, rest) := by
  obtain ⟨sign, whole, fraction, exponent, htext, hsign, hwhole, hfraction, hexponent, hne⟩ :=
    fr.grammar q
  rw [htext, matchNumber_append hsign hwhole hfraction hexponent hrest]
  simp only [List.isEmpty_eq_false_iff.mpr hne, Bool.not_false]

/-- The fraction that a text of `fractionText` stands for. -/
def readFraction (text : List Char) : PyFloat :=
  .finite (mkRat (intOfText (text.takeWhile (· ≠ '.')))
    (Nat.ofDigitChars 10 (text.dropWhile (· ≠ '.')).tail 0))

lemma readFraction_text (q : ℚ) : readFraction (fractionText (.finite q)) = .finite q := by
  have hnum : ∀ c ∈ intText q.num, decide (c ≠ '.') = true := by
    intro c hc
    simpa using intText_no_dot hc
  simp only [readFraction, fractionText, List.takeWhile_append_of_pos hnum,
    List.dropWhile_append_of_pos hnum]
  simp [intOfText_intText, Nat.ofDigitChars_ten_toDigits, Rat.mkRat_self]

def FloatReader.fraction : FloatReader where
  toFloatText := .fraction
  parse := readFraction
  parse_text := readFraction_text
  grammar := by
    intro q
    have hfraction : Fraction ('.' :: Nat.toDigits 10 q.den) :=
      .inr ⟨_, rfl, Nat.toDigits_ne_nil, fun _ => isDigit_of_mem⟩
    cases hnum : q.num with
    | ofNat n =>
      refine ⟨[], _, _, [], ?_, .inl rfl, whole_toDigits n, hfraction, .inl rfl, by simp⟩
      simp [FloatText.fraction, fractionText, hnum, intText]
    | negSucc n =>
      refine ⟨['-'], _, _, [], ?_, .inr rfl, whole_toDigits (n + 1), hfraction, .inl rfl, by simp⟩
      simp [FloatText.fraction, fractionText, hnum, intText]
  nan := rfl
  inf := rfl
  negInf := rfl

/-! ### Strings -/

/-- `_decode_uXXXX`: the value of four hexadecimal digits. -/
def hexDigit? (c : Char) : Option ℕ :=
  if c.isDigit then some (c.toNat - 48)
  else if 'a' ≤ c ∧ c ≤ 'f' then some (c.toNat - 87)
  else if 'A' ≤ c ∧ c ≤ 'F' then some (c.toNat - 55)
  else none

def hexFour? : List Char → Option (ℕ × List Char)
  | a :: b :: c :: d :: rest => do
    let a ← hexDigit? a
    let b ← hexDigit? b
    let c ← hexDigit? c
    let d ← hexDigit? d
    some (((a * 16 + b) * 16 + c) * 16 + d, rest)
  | _                        => none

def backslash (e : Char) : Option Char :=
  [('"', '"'), ('\\', '\\'), ('/', '/'), ('b', '\x08'), ('f', '\x0c'), ('n', '\n'), ('r', '\r'),
    ('t', '\t')].lookup e

/-- One character of a string; a surrogate that is not part of a pair is no character here. -/
def scanChar : List Char → Option (Char × List Char)
  | '\\' :: 'u' :: rest => do
    let (high, rest) ← hexFour? rest
    if 0xd800 ≤ high ∧ high ≤ 0xdbff then
      match rest with
      | '\\' :: 'u' :: rest' =>
        let (low, rest') ← hexFour? rest'
        if 0xdc00 ≤ low ∧ low ≤ 0xdfff then
          some (.ofNat (0x10000 + ((high - 0xd800) * 0x400 + (low - 0xdc00))), rest')
        else some (.ofNat high, rest)
      | _                    => some (.ofNat high, rest)
    else some (.ofNat high, rest)
  | '\\' :: e :: rest   => (backslash e).map fun c => (c, rest)
  | c :: rest           => if c.toNat < 32 then none else some (c, rest)
  | []                  => none

/-- The characters up to the closing quote. -/
def scanChars : ℕ → List Char → Option (List Char × List Char)
  | 0,        _  => none
  | fuel + 1, cs =>
    match cs with
    | '"' :: rest => some ([], rest)
    | _           => do
      let (c, rest) ← scanChar cs
      let (s, rest) ← scanChars fuel rest
      some (c :: s, rest)

/-- `scanstring`, after the opening quote. -/
def scanString (cs : List Char) : Option (String × List Char) :=
  (scanChars (cs.length + 1) cs).map fun (s, rest) => (String.ofList s, rest)

lemma hexDigit?_digitChar {n : ℕ} (h : n < 16) : hexDigit? (Nat.digitChar n) = some n := by
  interval_cases n <;> rfl

lemma hexFour?_hexFour {n : ℕ} (h : n < 0x10000) (rest : List Char) :
    hexFour? (hexFour n ++ rest) = some (n, rest) := by
  have hlt (m : ℕ) : m % 16 < 16 := Nat.mod_lt m (by omega)
  have hvalue : ((n / 4096 % 16 * 16 + n / 256 % 16) * 16 + n / 16 % 16) * 16 + n % 16 = n := by
    omega
  simp only [hexFour, List.map_cons, List.map_nil, List.cons_append, List.nil_append, hexFour?,
    hexDigit?_digitChar (hlt _), Option.bind_eq_bind, Option.bind_some, hvalue]

lemma scanChar_unit {n : ℕ} (h : n < 0x10000) (hn : ¬ (0xd800 ≤ n ∧ n ≤ 0xdbff))
    (rest : List Char) : scanChar (escapeUnit n ++ rest) = some (.ofNat n, rest) := by
  simp only [escapeUnit, List.cons_append, scanChar, hexFour?_hexFour h, Option.bind_eq_bind,
    Option.bind_some, if_neg hn]

lemma scanChar_pair {n m : ℕ} (hn : 0xd800 ≤ n ∧ n ≤ 0xdbff) (hm : 0xdc00 ≤ m ∧ m ≤ 0xdfff)
    (rest : List Char) : scanChar (escapeUnit n ++ escapeUnit m ++ rest) =
      some (.ofNat (0x10000 + ((n - 0xd800) * 0x400 + (m - 0xdc00))), rest) := by
  simp only [escapeUnit, List.append_assoc, List.cons_append, scanChar,
    hexFour?_hexFour (show n < 0x10000 by omega), hexFour?_hexFour (show m < 0x10000 by omega),
    Option.bind_eq_bind, Option.bind_some, if_pos hn, if_pos hm]

lemma backslash_shortEscape {c e : Char} (h : shortEscape c = some e) :
    backslash e = some c ∧ e ≠ 'u' := by
  simp only [shortEscape, List.lookup_cons, List.lookup_nil] at h
  repeat' split at h
  all_goals cases h
  all_goals
    rename_i heq
    rw [beq_iff_eq] at heq
    rw [heq]
    exact ⟨by decide, by decide⟩

lemma scanChar_escape (c : Char) (rest : List Char) :
    scanChar (escape c ++ rest) = some (c, rest) ∧ (escape c).head? ≠ some '"' := by
  rw [escape]
  cases hshort : shortEscape c with
  | some e =>
    obtain ⟨hback, hu⟩ := backslash_shortEscape hshort
    refine ⟨?_, by simp⟩
    show scanChar ('\\' :: e :: rest) = _
    rw [scanChar.eq_2 _ _ hu, hback]
    rfl
  | none =>
    have hbackslash : c ≠ '\\' := by
      rintro rfl
      rw [shortEscape_backslash] at hshort
      cases hshort
    have hquote : c ≠ '"' := by
      rintro rfl
      cases hshort
    dsimp only
    split_ifs with hplain hunit
    · simp [scanChar, hbackslash, hquote, hplain.1]
    · have hvalid := toNat_not_surrogate c
      rw [scanChar_unit hunit (by omega), Char.ofNat_toNat]
      exact ⟨rfl, by simp [escapeUnit]⟩
    · have hvalid := toNat_not_surrogate c
      rw [scanChar_pair (by omega) (by omega)]
      have hvalue : 0x10000 + ((0xd800 + (c.toNat - 0x10000) / 0x400 - 0xd800) * 0x400 +
          (0xdc00 + (c.toNat - 0x10000) % 0x400 - 0xdc00)) = c.toNat := by omega
      rw [hvalue, Char.ofNat_toNat]
      exact ⟨rfl, by simp [escapeUnit]⟩

lemma escape_ne_nil (c : Char) : escape c ≠ [] := by
  intro h
  have hread := (scanChar_escape c []).1
  rw [h] at hread
  cases hread

lemma scanChars_escape (s rest : List Char) {fuel : ℕ} (h : s.length < fuel) :
    scanChars fuel (s.flatMap escape ++ '"' :: rest) = some (s, rest) := by
  induction s generalizing fuel with
  | nil =>
    cases fuel with
    | zero      => cases h
    | succ fuel => rfl
  | cons c s ih =>
    cases fuel with
    | zero      => cases h
    | succ fuel =>
      obtain ⟨hread, hquote⟩ := scanChar_escape c (s.flatMap escape ++ '"' :: rest)
      have hstart : ∀ more, escape c ++ (s.flatMap escape ++ '"' :: rest) ≠ '"' :: more := by
        intro more heq
        cases hescape : escape c with
        | nil => exact escape_ne_nil c hescape
        | cons d ds =>
          rw [hescape, List.cons_append] at heq
          rw [hescape, (List.cons.inj heq).1] at hquote
          exact hquote rfl
      rw [List.flatMap_cons, List.append_assoc, scanChars.eq_3 _ _ hstart]
      simp [hread, ih (Nat.lt_of_succ_lt_succ h)]

lemma scanString_quote (s : String) (rest : List Char) :
    scanString (s.toList.flatMap escape ++ '"' :: rest) = some (s, rest) := by
  have hlength : s.toList.length ≤ (s.toList.flatMap escape).length := by
    rw [List.length_flatMap]
    refine le_trans ?_ (List.sum_le_sum fun c _ => List.length_pos_iff.mpr (escape_ne_nil c))
    simp
  rw [scanString, scanChars_escape _ _ (by rw [List.length_append]; omega)]
  simp

/-! ### The decoder -/

def isBlank (c : Char) : Bool := c = ' ' || c = '\t' || c = '\n' || c = '\r'

/-- `WHITESPACE.match`. -/
def skipBlanks (cs : List Char) : List Char := cs.dropWhile isBlank

section Scan

variable (fr : FloatReader)

mutual

/-- `scan_once`: the document at the start of the text, and what comes after it. Every call gives
one unit of its fuel to the calls it makes. -/
def scanOnce : ℕ → List Char → Option (Json × List Char)
  | 0,        _  => none
  | fuel + 1, cs =>
    match cs with
    | '"' :: rest                       => (scanString rest).map fun (s, rest) => (.str s, rest)
    | '\x7b' :: rest                    =>
      match skipBlanks rest with
      | '\x7d' :: rest => some (.obj [], rest)
      | rest           => scanFields fuel [] rest
    | '[' :: rest                       =>
      match skipBlanks rest with
      | ']' :: rest => some (.arr [], rest)
      | rest        => (scanItems fuel rest).map fun (items, rest) => (.arr items, rest)
    | 'n' :: 'u' :: 'l' :: 'l' :: rest  => some (.null, rest)
    | 't' :: 'r' :: 'u' :: 'e' :: rest  => some (.bool true, rest)
    | 'f' :: 'a' :: 'l' :: 's' :: 'e' :: rest => some (.bool false, rest)
    | 'N' :: 'a' :: 'N' :: rest         => some (.float .nan, rest)
    | 'I' :: 'n' :: 'f' :: 'i' :: 'n' :: 'i' :: 't' :: 'y' :: rest =>
      some (.float (.inf false), rest)
    | '-' :: 'I' :: 'n' :: 'f' :: 'i' :: 'n' :: 'i' :: 't' :: 'y' :: rest =>
      some (.float (.inf true), rest)
    | _                                 =>
      (matchNumber cs).map fun (text, isFloat, rest) =>
        (if isFloat then .float (fr.parse text) else .int (intOfText text), rest)

/-- `JSONArray`, from an item on. -/
def scanItems : ℕ → List Char → Option (List Json × List Char)
  | 0,        _  => none
  | fuel + 1, cs => do
    let (value, rest) ← scanOnce fuel cs
    match skipBlanks rest with
    | ']' :: rest => some ([value], rest)
    | ',' :: rest => do
      let (items, rest) ← scanItems fuel (skipBlanks rest)
      some (value :: items, rest)
    | _           => none

/-- `JSONObject`, from a key on. -/
def scanFields : ℕ → Dict Json → List Char → Option (Json × List Char)
  | 0,        _,    _  => none
  | fuel + 1, done, cs =>
    match cs with
    | '"' :: rest => do
      let (key, rest) ← scanString rest
      match skipBlanks rest with
      | ':' :: rest => do
        let (value, rest) ← scanOnce fuel (skipBlanks rest)
        let done := Dict.set key value done
        match skipBlanks rest with
        | '\x7d' :: rest => some (.obj done, rest)
        | ',' :: rest    => scanFields fuel done (skipBlanks rest)
        | _              => none
      | _           => none
    | _           => none

end

/-- `json.loads`; none stands for the `JSONDecodeError`. The fuel is enough for a text of which
every second call reads a character. -/
def read (cs : List Char) : Option Json :=
  if cs.head? = some '\ufeff' then none
  else match scanOnce fr (2 * cs.length + 2) (skipBlanks cs) with
    | some (value, rest) => if skipBlanks rest = [] then some value else none
    | none               => none

/-! ### The indented text -/

def newline (level : ℕ) : List Char := '\n' :: List.replicate (2 * level) ' '

mutual

/-- `json.dumps(value, indent=2)` at a level of the nesting. -/
def pretty (level : ℕ) : Json → List Char
  | .null                       => ['n', 'u', 'l', 'l']
  | .bool true                  => ['t', 'r', 'u', 'e']
  | .bool false                 => ['f', 'a', 'l', 's', 'e']
  | .int n                      => intText n
  | .float x                    => fr.text x
  | .str s                      => quote s
  | .arr []                     => ['[', ']']
  | .arr (value :: items)       =>
    '[' :: (newline (level + 1) ++ (pretty (level + 1) value ++
      (prettyItems (level + 1) items ++ (newline level ++ [']']))))
  | .obj []                     => ['\x7b', '\x7d']
  | .obj ((key, value) :: rest) =>
    '\x7b' :: (newline (level + 1) ++ (quote key ++ (':' :: ' ' :: (pretty (level + 1) value ++
      (prettyFields (level + 1) rest ++ (newline level ++ ['\x7d']))))))

/-- Every item with a separator and a new line before it. -/
def prettyItems (level : ℕ) : List Json → List Char
  | []             => []
  | value :: items => ',' :: (newline level ++ (pretty level value ++ prettyItems level items))

def prettyFields (level : ℕ) : Dict Json → List Char
  | []                   => []
  | (key, value) :: rest =>
    ',' :: (newline level ++ (quote key ++ (':' :: ' ' :: (pretty level value ++
      prettyFields level rest))))

end

end Scan

mutual

/-- The keys of every object differ, as those of a dictionary do. -/
def Distinct : Json → Prop
  | .arr items  => DistinctItems items
  | .obj fields => (fields.map Prod.fst).Nodup ∧ DistinctFields fields
  | _           => True

def DistinctItems : List Json → Prop
  | []             => True
  | value :: items => Distinct value ∧ DistinctItems items

def DistinctFields : Dict Json → Prop
  | []                 => True
  | (_, value) :: rest => Distinct value ∧ DistinctFields rest

end

/-! ### The text is read back -/

variable {fr : FloatReader}

lemma skipBlanks_cons {c : Char} (h : isBlank c = false) (rest : List Char) :
    skipBlanks (c :: rest) = c :: rest := by
  simp [skipBlanks, h]

lemma skipBlanks_newline (level : ℕ) (rest : List Char) :
    skipBlanks (newline level ++ rest) = skipBlanks rest := by
  have hspaces : ∀ c ∈ newline level, isBlank c = true := by
    intro c hc
    rw [newline, List.mem_cons, List.mem_replicate] at hc
    obtain rfl | ⟨-, rfl⟩ := hc <;> rfl
  rw [skipBlanks, List.dropWhile_append_of_pos hspaces, skipBlanks]

lemma ends_newline (level : ℕ) (rest : List Char) : Ends (newline level ++ rest) :=
  ends_cons (by decide)

variable (fr) in
lemma ends_items (level outer : ℕ) (items : List Json) (rest : List Char) :
    Ends (prettyItems fr level items ++ (newline outer ++ rest)) := by
  cases items with
  | nil         => exact ends_newline outer rest
  | cons v rest => exact ends_cons (by decide)

variable (fr) in
lemma ends_fields (level outer : ℕ) (fields : Dict Json) (rest : List Char) :
    Ends (prettyFields fr level fields ++ (newline outer ++ rest)) := by
  cases fields with
  | nil         => exact ends_newline outer rest
  | cons kv fields => exact ends_cons (by decide)

/-- The characters a document may start with. -/
def Starts (c : Char) : Prop :=
  isBlank c = false ∧ c ≠ ']' ∧ c ≠ '\x7d' ∧ c ≠ '\ufeff'

instance (c : Char) : Decidable (Starts c) :=
  inferInstanceAs (Decidable (isBlank c = false ∧ c ≠ ']' ∧ c ≠ '\x7d' ∧ c ≠ '\ufeff'))

lemma starts_of_number {c : Char} (h : c = '-' ∨ c.isDigit = true) : Starts c := by
  obtain rfl | hdigit := h
  · decide
  · have hne (d : Char) (hd : d.isDigit = false) : c ≠ d := ne_of_isDigit hdigit hd
    refine ⟨?_, hne _ (by decide), hne _ (by decide), hne _ (by decide)⟩
    simp [isBlank, hne]

lemma number_start (fr : FloatReader) (q : ℚ) :
    ∃ c cs, fr.text (.finite q) = c :: cs ∧ (c = '-' ∨ c.isDigit = true) := by
  obtain ⟨sign, whole, fraction, exponent, htext, hsign, hwhole, -⟩ := fr.grammar q
  rw [htext]
  obtain rfl | rfl := hsign
  · obtain rfl | ⟨⟨hne, hds⟩, -⟩ := hwhole
    · exact ⟨_, _, rfl, .inr (by decide)⟩
    · cases whole with
      | nil       => exact absurd rfl hne
      | cons c cs => exact ⟨c, _, rfl, .inr (hds c List.mem_cons_self)⟩
  · exact ⟨'-', _, rfl, .inl rfl⟩

variable (fr) in
lemma pretty_start (level : ℕ) (value : Json) :
    ∃ c cs, pretty fr level value = c :: cs ∧ Starts c := by
  cases value with
  | null => exact ⟨_, _, rfl, by decide⟩
  | bool b => cases b <;> exact ⟨_, _, rfl, by decide⟩
  | int n =>
    obtain ⟨c, cs, hcs⟩ := List.exists_cons_of_ne_nil (intText_ne_nil n)
    exact ⟨c, cs, hcs, starts_of_number (intText_chars (by rw [hcs]; exact List.mem_cons_self))⟩
  | float x =>
    cases x with
    | finite q =>
      obtain ⟨c, cs, hcs, hc⟩ := number_start fr q
      exact ⟨c, cs, hcs, starts_of_number hc⟩
    | inf negative =>
      cases negative
      · exact ⟨_, _, fr.inf, by decide⟩
      · exact ⟨_, _, fr.negInf, by decide⟩
    | nan => exact ⟨_, _, fr.nan, by decide⟩
  | str s => exact ⟨_, _, rfl, by decide⟩
  | arr items => cases items <;> exact ⟨_, _, rfl, by decide⟩
  | obj fields => cases fields <;> exact ⟨_, _, rfl, by decide⟩

lemma skipBlanks_pretty (level : ℕ) (value : Json) (rest : List Char) :
    skipBlanks (pretty fr level value ++ rest) = pretty fr level value ++ rest := by
  obtain ⟨c, cs, hcs, hc, -⟩ := pretty_start fr level value
  rw [hcs, List.cons_append, skipBlanks_cons hc]

lemma skipBlanks_quote (s : String) (rest : List Char) :
    skipBlanks (quote s ++ rest) = quote s ++ rest :=
  skipBlanks_cons (by decide) _

lemma scanOnce_number {c : Char} {cs text rest : List Char} {isFloat : Bool} (fuel : ℕ)
    (hc : c = '-' ∨ c.isDigit = true)
    (hmatch : matchNumber (c :: cs) = some (text, isFloat, rest)) :
    scanOnce fr (fuel + 1) (c :: cs) =
      some (if isFloat then .float (fr.parse text) else .int (intOfText text), rest) := by
  have hne (d : Char) (hd : d.isDigit = false ∧ d ≠ '-') : c ≠ d := by
    obtain rfl | hdigit := hc
    · exact hd.2.symm
    · exact ne_of_isDigit hdigit hd.1
  rw [scanOnce]
  · rw [hmatch, Option.map_some]
  all_goals
    intro more h
    first
      | exact absurd (List.cons.inj h).1 (hne _ (by decide))
      | simp [h, matchNumber, takeSign, takeWhole, takeDigits] at hmatch

lemma scanOnce_int (n : ℤ) {fuel : ℕ} {rest : List Char} (hrest : Ends rest) :
    scanOnce fr (fuel + 1) (intText n ++ rest) = some (.int n, rest) := by
  have hmatch := matchNumber_intText n hrest
  obtain ⟨c, cs, htext⟩ := List.exists_cons_of_ne_nil (intText_ne_nil n)
  have hc : c = '-' ∨ c.isDigit = true :=
    intText_chars (n := n) (by rw [htext]; exact List.mem_cons_self)
  rw [htext, List.cons_append] at hmatch ⊢
  rw [scanOnce_number fuel hc hmatch, ← htext, intOfText_intText]
  rfl

lemma scanOnce_float (x : PyFloat) {fuel : ℕ} {rest : List Char} (hrest : Ends rest) :
    scanOnce fr (fuel + 1) (fr.text x ++ rest) = some (.float x, rest) := by
  cases x with
  | finite q =>
    have hmatch := fr.match_text q hrest
    obtain ⟨c, cs, htext, hc⟩ := number_start fr q
    rw [htext, List.cons_append] at hmatch ⊢
    rw [scanOnce_number fuel hc hmatch, ← htext, fr.parse_text]
    rfl
  | inf negative =>
    cases negative
    · rw [fr.inf]
      rfl
    · rw [fr.negInf]
      rfl
  | nan =>
    rw [fr.nan]
    rfl

lemma scanOnce_quote (s : String) {fuel : ℕ} (rest : List Char) :
    scanOnce fr (fuel + 1) (quote s ++ rest) = some (.str s, rest) := by
  rw [quote, List.append_assoc, List.cons_append, List.singleton_append, scanOnce,
    scanString_quote]
  rfl

/-- A value is read back from its text at a level, whatever ends it. -/
def ReadsBack (fr : FloatReader) (level : ℕ) (value : Json) : Prop :=
  ∀ ⦃fuel rest⦄, Ends rest → 2 * (pretty fr level value).length ≤ fuel →
    scanOnce fr fuel (pretty fr level value ++ rest) = some (value, rest)

lemma readsBack_of_succ {level : ℕ} {value : Json}
    (h : ∀ fuel rest, Ends rest → 2 * (pretty fr level value).length ≤ fuel + 1 →
      scanOnce fr (fuel + 1) (pretty fr level value ++ rest) = some (value, rest)) :
    ReadsBack fr level value := by
  intro fuel rest hrest hfuel
  obtain ⟨c, cs, hcs, -⟩ := pretty_start fr level value
  rw [hcs, List.length_cons] at hfuel
  obtain ⟨fuel, rfl⟩ : ∃ f, fuel = f + 1 := ⟨fuel - 1, by omega⟩
  exact h fuel rest hrest (by rwa [hcs, List.length_cons])

lemma scanOnce_items {fuel : ℕ} {c : Char} (hc : Starts c) {cs rest : List Char}
    {items : List Json} (h : scanItems fr fuel (c :: cs) = some (items, rest)) (level : ℕ) :
    scanOnce fr (fuel + 1) ('[' :: (newline level ++ c :: cs)) = some (.arr items, rest) := by
  rw [scanOnce, skipBlanks_newline, skipBlanks_cons hc.1]
  split
  · exact absurd (List.cons.inj ‹_›).1 hc.2.1
  · rw [h]
    rfl

lemma scanOnce_fields {fuel : ℕ} {cs rest : List Char} {value : Json}
    (h : scanFields fr fuel [] ('"' :: cs) = some (value, rest)) (level : ℕ) :
    scanOnce fr (fuel + 1) ('\x7b' :: (newline level ++ '"' :: cs)) = some (value, rest) := by
  rw [scanOnce, skipBlanks_newline, skipBlanks_cons (by decide)]
  exact h

lemma scanFields_step {fuel level : ℕ} {key : String} {value : Json} {done : Dict Json}
    {rest : List Char} (hvalue : ReadsBack fr level value) (hnew : ∀ kv ∈ done, kv.1 ≠ key)
    (hrest : Ends rest) (hfuel : 2 * (pretty fr level value).length ≤ fuel) :
    scanFields fr (fuel + 1) done
        (quote key ++ (':' :: ' ' :: (pretty fr level value ++ rest))) =
      match skipBlanks rest with
      | '\x7d' :: rest => some (.obj (done ++ [(key, value)]), rest)
      | ',' :: rest    => scanFields fr fuel (done ++ [(key, value)]) (skipBlanks rest)
      | _              => none := by
  have hblank : skipBlanks (' ' :: (pretty fr level value ++ rest)) =
      pretty fr level value ++ rest := skipBlanks_pretty level value rest
  rw [quote, List.append_assoc, List.cons_append, List.singleton_append, scanFields,
    scanString_quote]
  simp only [Option.bind_eq_bind, Option.bind_some,
    skipBlanks_cons (show isBlank ':' = false by decide), hblank, hvalue hrest hfuel,
    Dict.set_of_new hnew]

lemma new_of_nodup {done fields : Dict Json} {key : String} {value : Json}
    (h : ((done ++ (key, value) :: fields).map Prod.fst).Nodup) : ∀ kv ∈ done, kv.1 ≠ key := by
  intro kv hkv heq
  rw [List.map_append, List.map_cons, List.nodup_append] at h
  exact h.2.2 kv.1 (List.mem_map_of_mem hkv) key List.mem_cons_self heq

mutual

theorem readsBack_pretty : ∀ (value : Json) (level : ℕ), Distinct value → ReadsBack fr level value
  | .null,   _, _ => readsBack_of_succ fun _ _ _ _ => rfl
  | .bool b, _, _ => readsBack_of_succ fun _ _ _ _ => by cases b <;> rfl
  | .int n,  _, _ => readsBack_of_succ fun _ _ hrest _ => scanOnce_int n hrest
  | .float x, _, _ => readsBack_of_succ fun _ _ hrest _ => scanOnce_float x hrest
  | .str s,  _, _ => readsBack_of_succ fun _ rest _ _ => scanOnce_quote s rest
  | .arr [], _, _ => readsBack_of_succ fun _ _ _ _ => rfl
  | .obj [], _, _ => readsBack_of_succ fun _ _ _ _ => rfl
  | .arr (value :: items), level, hdistinct => by
    refine readsBack_of_succ fun fuel rest _ hfuel => ?_
    simp only [pretty, List.length_cons, List.length_append, List.length_nil] at hfuel
    have hitems := readsBack_items items (level + 1) level
      (readsBack_pretty value (level + 1) hdistinct.1) hdistinct.2 fuel rest (by omega)
    obtain ⟨c, cs, hcs, hc⟩ := pretty_start fr (level + 1) value
    simp only [pretty, List.cons_append, List.append_assoc, List.nil_append]
    rw [hcs, List.cons_append] at hitems ⊢
    exact scanOnce_items hc hitems _
  | .obj ((key, value) :: fields), level, hdistinct => by
    refine readsBack_of_succ fun fuel rest _ hfuel => ?_
    simp only [pretty, List.length_cons, List.length_append, List.length_nil] at hfuel
    have hfields := readsBack_fields fields (level + 1) level key value []
      (readsBack_pretty value (level + 1) hdistinct.2.1) hdistinct.2.2 hdistinct.1 fuel rest
      (by omega)
    simp only [pretty, List.cons_append, List.append_assoc, List.nil_append]
    rw [quote, List.cons_append, List.cons_append] at hfields ⊢
    exact scanOnce_fields hfields _

theorem readsBack_items : ∀ (items : List Json) (level outer : ℕ) {value : Json},
    ReadsBack fr level value → DistinctItems items → ∀ (fuel : ℕ) (rest : List Char),
      2 * ((pretty fr level value).length + (prettyItems fr level items).length) + 1 ≤ fuel →
      scanItems fr fuel (pretty fr level value ++ (prettyItems fr level items ++
        (newline outer ++ ']' :: rest))) = some (value :: items, rest)
  | [],            level, outer, value, hvalue, _, fuel, rest, hfuel => by
    obtain ⟨fuel, rfl⟩ : ∃ f, fuel = f + 1 := ⟨fuel - 1, by omega⟩
    rw [scanItems, hvalue (ends_items fr level outer [] _) (by omega)]
    simp only [prettyItems, List.nil_append, Option.bind_eq_bind, Option.bind_some,
      skipBlanks_newline, skipBlanks_cons (show isBlank ']' = false by decide)]
  | item :: items, level, outer, value, hvalue, hdistinct, fuel, rest, hfuel => by
    obtain ⟨fuel, rfl⟩ : ∃ f, fuel = f + 1 := ⟨fuel - 1, by omega⟩
    have hends := ends_items fr level outer (item :: items) (']' :: rest)
    simp only [prettyItems, List.length_cons, List.length_append] at hfuel
    have hitems := readsBack_items items level outer
      (readsBack_pretty item level hdistinct.1) hdistinct.2 fuel rest (by omega)
    rw [scanItems, hvalue hends (by omega)]
    simp only [prettyItems, List.cons_append, List.append_assoc, Option.bind_eq_bind,
      Option.bind_some, skipBlanks_cons (show isBlank ',' = false by decide), skipBlanks_newline,
      skipBlanks_pretty, hitems]

theorem readsBack_fields : ∀ (fields : Dict Json) (level outer : ℕ) (key : String) (value : Json)
    (done : Dict Json), ReadsBack fr level value → DistinctFields fields →
      ((done ++ (key, value) :: fields).map Prod.fst).Nodup → ∀ (fuel : ℕ) (rest : List Char),
      2 * ((pretty fr level value).length + (prettyFields fr level fields).length) + 1 ≤ fuel →
      scanFields fr fuel done (quote key ++ (':' :: ' ' :: (pretty fr level value ++
        (prettyFields fr level fields ++ (newline outer ++ '\x7d' :: rest))))) =
        some (.obj (done ++ (key, value) :: fields), rest)
  | [],                     level, outer, key, value, done, hvalue, _, hnodup, fuel, rest,
      hfuel => by
    obtain ⟨fuel, rfl⟩ : ∃ f, fuel = f + 1 := ⟨fuel - 1, by omega⟩
    rw [scanFields_step hvalue (new_of_nodup hnodup) (ends_fields fr level outer [] _) (by omega)]
    simp only [prettyFields, List.nil_append, skipBlanks_newline,
      skipBlanks_cons (show isBlank '\x7d' = false by decide)]
  | (key', item) :: fields, level, outer, key, value, done, hvalue, hdistinct, hnodup, fuel, rest,
      hfuel => by
    obtain ⟨fuel, rfl⟩ : ∃ f, fuel = f + 1 := ⟨fuel - 1, by omega⟩
    have hends := ends_fields fr level outer ((key', item) :: fields) ('\x7d' :: rest)
    have hmoved : done ++ (key, value) :: (key', item) :: fields =
        done ++ [(key, value)] ++ (key', item) :: fields := by simp
    simp only [prettyFields, List.length_cons, List.length_append] at hfuel
    rw [scanFields_step hvalue (new_of_nodup hnodup) hends (by omega)]
    rw [hmoved] at hnodup ⊢
    have hfields := readsBack_fields fields level outer key' item (done ++ [(key, value)])
      (readsBack_pretty item level hdistinct.1) hdistinct.2 hnodup fuel rest (by omega)
    rw [← hfields]
    simp only [prettyFields, List.cons_append, List.append_assoc,
      skipBlanks_cons (show isBlank ',' = false by decide), skipBlanks_newline, skipBlanks_quote]

end

lemma head?_pretty_append (level : ℕ) (value : Json) (rest : List Char) :
    (pretty fr level value ++ rest).head? ≠ some '\ufeff' := by
  obtain ⟨c, cs, hcs, -, -, -, hc⟩ := pretty_start fr level value
  rw [hcs]
  simpa using hc

theorem read_pretty {value : Json} (h : Distinct value) (level : ℕ) :
    read fr (pretty fr level value) = some value := by
  have hscan : scanOnce fr (2 * (pretty fr level value).length + 2)
      (pretty fr level value ++ []) = some (value, []) :=
    readsBack_pretty value level h ends_nil (by omega)
  have hbom : (pretty fr level value ++ []).head? ≠ some '\ufeff' :=
    head?_pretty_append level value []
  have hblank : skipBlanks (pretty fr level value ++ []) = pretty fr level value ++ [] :=
    skipBlanks_pretty level value []
  rw [List.append_nil] at hscan hbom hblank
  rw [read, if_neg hbom, hblank, hscan]
  rfl

/-! ### Printable characters -/

def Printable (c : Char) : Prop := 32 ≤ c.toNat ∧ c.toNat ≤ 126

instance (c : Char) : Decidable (Printable c) :=
  inferInstanceAs (Decidable (32 ≤ c.toNat ∧ c.toNat ≤ 126))

lemma printable_all {l : List Char} (h : (l.all fun c => decide (Printable c)) = true) :
    ∀ c ∈ l, Printable c :=
  fun c hc => of_decide_eq_true (List.all_eq_true.mp h c hc)

lemma printable_of_isDigit {c : Char} (h : c.isDigit = true) : Printable c := by
  have hrange : 48 ≤ c.toNat ∧ c.toNat ≤ 57 := by
    simpa [Char.isDigit, Char.le_def, UInt32.le_iff_toNat_le] using h
  exact ⟨by omega, by omega⟩

lemma printable_number {c : Char} (h : c = '-' ∨ c.isDigit = true) : Printable c := by
  obtain rfl | hdigit := h
  · decide
  · exact printable_of_isDigit hdigit

lemma printable_escapeUnit (n : ℕ) : ∀ c ∈ escapeUnit n, Printable c := by
  have hdigit {m : ℕ} (h : m < 16) : Printable (Nat.digitChar m) := by
    interval_cases m <;> decide
  have hlt (m : ℕ) : m % 16 < 16 := Nat.mod_lt m (by omega)
  intro c hc
  simp only [escapeUnit, hexFour, List.map_cons, List.map_nil, List.mem_cons, List.not_mem_nil,
    or_false] at hc
  obtain rfl | rfl | rfl | rfl | rfl | rfl := hc
  · decide
  · decide
  all_goals exact hdigit (hlt _)

lemma printable_escape (c : Char) : ∀ d ∈ escape c, Printable d := by
  rw [escape]
  cases hshort : shortEscape c with
  | some e =>
    have he : Printable e := by
      simp only [shortEscape, List.lookup_cons, List.lookup_nil] at hshort
      repeat' split at hshort
      all_goals
        cases hshort
        try decide
    intro d hd
    simp only [List.mem_cons, List.not_mem_nil, or_false] at hd
    obtain rfl | rfl := hd
    · decide
    · exact he
  | none =>
    dsimp only
    split_ifs with hplain
    · intro d hd
      rw [List.mem_singleton.mp hd]
      exact hplain
    · exact printable_escapeUnit _
    · intro d hd
      obtain hd | hd := List.mem_append.mp hd <;> exact printable_escapeUnit _ d hd

lemma printable_quote (s : String) : ∀ c ∈ quote s, Printable c := by
  intro c hc
  rw [quote, List.cons_append, List.mem_cons, List.mem_append, List.mem_singleton] at hc
  obtain rfl | hc | rfl := hc
  · decide
  · obtain ⟨d, -, hd⟩ := List.mem_flatMap.mp hc
    exact printable_escape d c hd
  · decide

lemma printable_float (x : PyFloat) : ∀ c ∈ fr.text x, Printable c := by
  cases x with
  | finite q =>
    obtain ⟨sign, whole, fraction, exponent, htext, hsign, hwhole, hfraction, hexponent, -⟩ :=
      fr.grammar q
    have hdigits {ds : List Char} (h : Digits ds) : ∀ c ∈ ds, Printable c :=
      fun c hc => printable_of_isDigit (h.2 c hc)
    intro c hc
    rw [htext, List.mem_append, List.mem_append, List.mem_append] at hc
    obtain hc | hc | hc | hc := hc
    · obtain rfl | rfl := hsign
      · cases hc
      · rw [List.mem_singleton.mp hc]
        decide
    · obtain rfl | ⟨hds, -⟩ := hwhole
      · rw [List.mem_singleton.mp hc]
        decide
      · exact hdigits hds c hc
    · obtain rfl | ⟨ds, rfl, hds⟩ := hfraction
      · cases hc
      · obtain rfl | hc := List.mem_cons.mp hc
        · decide
        · exact hdigits hds c hc
    · obtain rfl | ⟨e, es, ds, rfl, he, hes, hds⟩ := hexponent
      · cases hc
      · obtain rfl | hc := List.mem_cons.mp hc
        · obtain rfl | rfl := he <;> decide
        · obtain hc | hc := List.mem_append.mp hc
          · simp only [List.mem_cons, List.not_mem_nil, or_false] at hes
            obtain rfl | rfl | rfl := hes
            · cases hc
            all_goals
              rw [List.mem_singleton.mp hc]
              decide
          · exact hdigits hds c hc
  | inf negative =>
    cases negative
    · rw [fr.inf]
      exact printable_all (by decide)
    · rw [fr.negInf]
      exact printable_all (by decide)
  | nan =>
    rw [fr.nan]
    exact printable_all (by decide)

lemma newline_chars {level : ℕ} {c : Char} (h : c ∈ newline level) : c = '\n' ∨ Printable c := by
  rw [newline, List.mem_cons, List.mem_replicate] at h
  obtain rfl | ⟨-, rfl⟩ := h
  · exact .inl rfl
  · exact .inr (by decide)

mutual

theorem pretty_chars : ∀ (value : Json) (level : ℕ), ∀ c ∈ pretty fr level value,
    c = '\n' ∨ Printable c
  | .null,    _, c, hc => .inr (printable_all (l := ['n', 'u', 'l', 'l']) (by decide) c hc)
  | .bool b,  _, c, hc => by
    right
    cases b
    · exact printable_all (l := ['f', 'a', 'l', 's', 'e']) (by decide) c hc
    · exact printable_all (l := ['t', 'r', 'u', 'e']) (by decide) c hc
  | .int _,   _, _, hc => .inr (printable_number (intText_chars hc))
  | .float x, _, c, hc => .inr (printable_float x c hc)
  | .str s,   _, c, hc => .inr (printable_quote s c hc)
  | .arr [],  _, c, hc => .inr (printable_all (l := ['[', ']']) (by decide) c hc)
  | .obj [],  _, c, hc => .inr (printable_all (l := ['\x7b', '\x7d']) (by decide) c hc)
  | .arr (value :: items), level, c, hc => by
    simp only [pretty, List.mem_cons, List.mem_append, List.not_mem_nil, or_false] at hc
    obtain rfl | hc | hc | hc | hc | rfl := hc
    · exact .inr (by decide)
    · exact newline_chars hc
    · exact pretty_chars value (level + 1) c hc
    · exact prettyItems_chars items (level + 1) c hc
    · exact newline_chars hc
    · exact .inr (by decide)
  | .obj ((key, value) :: fields), level, c, hc => by
    simp only [pretty, List.mem_cons, List.mem_append, List.not_mem_nil, or_false] at hc
    obtain rfl | hc | hc | rfl | rfl | hc | hc | hc | rfl := hc
    · exact .inr (by decide)
    · exact newline_chars hc
    · exact .inr (printable_quote key c hc)
    · exact .inr (by decide)
    · exact .inr (by decide)
    · exact pretty_chars value (level + 1) c hc
    · exact prettyFields_chars fields (level + 1) c hc
    · exact newline_chars hc
    · exact .inr (by decide)

theorem prettyItems_chars : ∀ (items : List Json) (level : ℕ), ∀ c ∈ prettyItems fr level items,
    c = '\n' ∨ Printable c
  | [],             _,     c, hc => by cases hc
  | value :: items, level, c, hc => by
    simp only [prettyItems, List.mem_cons, List.mem_append] at hc
    obtain rfl | hc | hc | hc := hc
    · exact .inr (by decide)
    · exact newline_chars hc
    · exact pretty_chars value level c hc
    · exact prettyItems_chars items level c hc

theorem prettyFields_chars : ∀ (fields : Dict Json) (level : ℕ),
    ∀ c ∈ prettyFields fr level fields, c = '\n' ∨ Printable c
  | [],                     _,     c, hc => by cases hc
  | (key, value) :: fields, level, c, hc => by
    simp only [prettyFields, List.mem_cons, List.mem_append] at hc
    obtain rfl | hc | hc | rfl | rfl | hc | hc := hc
    · exact .inr (by decide)
    · exact newline_chars hc
    · exact .inr (printable_quote key c hc)
    · exact .inr (by decide)
    · exact .inr (by decide)
    · exact pretty_chars value level c hc
    · exact prettyFields_chars fields level c hc

end

/-! ### The later lines of the text -/

def lineTails : List Char → List (List Char)
  | []      => []
  | c :: cs => if c = '\n' then cs :: lineTails cs else lineTails cs

lemma lineTails_append (xs ys : List Char) :
    lineTails (xs ++ ys) = (lineTails xs).map (· ++ ys) ++ lineTails ys := by
  induction xs with
  | nil => rfl
  | cons c cs ih =>
    rw [List.cons_append, lineTails, lineTails, ih]
    split_ifs <;> rfl

lemma lineTails_printable {cs : List Char} (h : ∀ c ∈ cs, Printable c) : lineTails cs = [] := by
  induction cs with
  | nil => rfl
  | cons c cs ih =>
    have hc : c ≠ '\n' := by
      rintro rfl
      exact absurd (h _ List.mem_cons_self) (by decide)
    rw [lineTails, if_neg hc, ih fun d hd => h d (List.mem_cons_of_mem _ hd)]

lemma printable_spaces (n : ℕ) : ∀ c ∈ List.replicate n ' ', Printable c := by
  intro c hc
  rw [(List.mem_replicate.mp hc).2]
  decide

lemma mem_lineTails_newline {level : ℕ} {cs t : List Char} :
    t ∈ lineTails (newline level ++ cs) ↔
      t = List.replicate (2 * level) ' ' ++ cs ∨ t ∈ lineTails cs := by
  rw [newline, List.cons_append, lineTails, if_pos rfl, lineTails_append,
    lineTails_printable (printable_spaces _)]
  simp

lemma mem_lineTails_append {xs ys t : List Char} :
    t ∈ lineTails (xs ++ ys) ↔ (∃ u ∈ lineTails xs, t = u ++ ys) ∨ t ∈ lineTails ys := by
  rw [lineTails_append, List.mem_append, List.mem_map]
  simp only [eq_comm]

lemma mem_lineTails_cons {c : Char} {cs t : List Char} (hc : Printable c) :
    t ∈ lineTails (c :: cs) ↔ t ∈ lineTails cs := by
  have hne : c ≠ '\n' := by
    rintro rfl
    exact absurd hc (by decide)
  rw [lineTails, if_neg hne]

lemma mem_lineTails_quote {key : String} {cs t : List Char} :
    t ∈ lineTails (quote key ++ cs) ↔ t ∈ lineTails cs := by
  rw [lineTails_append, lineTails_printable (printable_quote key)]
  simp

lemma read_of_scan {value : Json} {level : ℕ} {cs rest : List Char}
    (hbom : cs.head? ≠ some '\ufeff') (hblank : skipBlanks cs = cs)
    (hscan : ∀ fuel, 2 * cs.length ≤ fuel → scanOnce fr fuel cs = some (value, rest))
    (hmore : skipBlanks rest ≠ []) : read fr (List.replicate (2 * level) ' ' ++ cs) = none := by
  have hspaces : ∀ c ∈ List.replicate (2 * level) ' ', isBlank c = true := by
    intro c hc
    rw [(List.mem_replicate.mp hc).2]
    rfl
  have hhead : (List.replicate (2 * level) ' ' ++ cs).head? ≠ some '\ufeff' := by
    cases level with
    | zero       => simpa using hbom
    | succ level => simp [Nat.mul_succ, List.replicate_succ]
  have hskip : skipBlanks (List.replicate (2 * level) ' ' ++ cs) = cs := by
    rw [skipBlanks, List.dropWhile_append_of_pos hspaces]
    exact hblank
  rw [read, if_neg hhead, hskip, hscan _ (by rw [List.length_append]; omega)]
  exact if_neg hmore

lemma read_closing (level : ℕ) {c : Char} (hc : c = ']' ∨ c = '\x7d') (rest : List Char) :
    read fr (List.replicate (2 * level) ' ' ++ c :: rest) = none := by
  have hspaces : ∀ c ∈ List.replicate (2 * level) ' ', isBlank c = true := by
    intro c hc
    rw [(List.mem_replicate.mp hc).2]
    rfl
  have hskip : skipBlanks (List.replicate (2 * level) ' ' ++ c :: rest) = c :: rest := by
    rw [skipBlanks, List.dropWhile_append_of_pos hspaces]
    exact skipBlanks_cons (by obtain rfl | rfl := hc <;> decide) rest
  rw [read, hskip]
  split_ifs
  · rfl
  · obtain rfl | rfl := hc <;> rfl

section Tails

variable (fr) in
/-- Nothing is read from any of the texts, whatever comes after it. -/
def Unreadable (tails : List (List Char)) : Prop := ∀ t ∈ tails, ∀ rest, read fr (t ++ rest) = none

lemma unreadable_closing (level : ℕ) {c : Char} (hc : c = ']' ∨ c = '\x7d') :
    Unreadable fr (lineTails (newline level ++ [c])) := by
  intro t ht rest
  obtain rfl | ht := mem_lineTails_newline.mp ht
  · rw [List.append_assoc]
    exact read_closing level hc _
  · have hprintable : Printable c := by obtain rfl | rfl := hc <;> decide
    rw [mem_lineTails_cons hprintable] at ht
    cases ht

/-- More than blanks comes next, and no number goes on. -/
structure Followed (cs : List Char) : Prop where
  ends : ∀ rest, Ends (cs ++ rest)
  more : ∀ rest, skipBlanks (cs ++ rest) ≠ []

lemma followed_cons {c : Char} (hblank : isBlank c = false)
    (hends : c.isDigit = false ∧ c ≠ '.' ∧ c ≠ 'e' ∧ c ≠ 'E') (cs : List Char) :
    Followed (c :: cs) where
  ends rest := ends_cons hends
  more rest := by
    rw [List.cons_append, skipBlanks_cons hblank]
    exact List.cons_ne_nil _ _

lemma followed_closing (level : ℕ) {c : Char} (hc : c = ']' ∨ c = '\x7d') :
    Followed (newline level ++ [c]) where
  ends rest := by
    rw [List.append_assoc]
    exact ends_newline level _
  more rest := by
    rw [List.append_assoc, skipBlanks_newline]
    obtain rfl | rfl := hc <;> exact List.cons_ne_nil _ _

lemma unreadable_value {level : ℕ} {value : Json} {more : List Char}
    (hlines : Unreadable fr (lineTails (pretty fr level value)))
    (hmore : Unreadable fr (lineTails more)) :
    Unreadable fr (lineTails (pretty fr level value ++ more)) := by
  intro t ht rest
  obtain ⟨u, hu, rfl⟩ | ht := mem_lineTails_append.mp ht
  · rw [List.append_assoc]
    exact hlines u hu _
  · exact hmore t ht rest

lemma unreadable_item {level : ℕ} {value : Json} {more : List Char} (hvalue : Distinct value)
    (hlines : Unreadable fr (lineTails (pretty fr level value)))
    (hmore : Unreadable fr (lineTails more)) (hfollowed : Followed more) :
    Unreadable fr (lineTails (newline level ++ (pretty fr level value ++ more))) := by
  intro t ht rest
  obtain rfl | ht := mem_lineTails_newline.mp ht
  · rw [List.append_assoc, List.append_assoc]
    refine read_of_scan (head?_pretty_append level value _) (skipBlanks_pretty level value _)
      (fun fuel hfuel => readsBack_pretty value level hvalue (hfollowed.ends rest) ?_)
      (hfollowed.more rest)
    rw [List.length_append] at hfuel
    omega
  · exact unreadable_value hlines hmore t ht rest

lemma unreadable_field {level : ℕ} {key : String} {value : Json} {more : List Char}
    (hlines : Unreadable fr (lineTails (pretty fr level value)))
    (hmore : Unreadable fr (lineTails more)) :
    Unreadable fr (lineTails (newline level ++
      (quote key ++ (':' :: ' ' :: (pretty fr level value ++ more))))) := by
  intro t ht rest
  obtain rfl | ht := mem_lineTails_newline.mp ht
  · rw [List.append_assoc, List.append_assoc]
    have hscan : ∀ fuel, 2 * (quote key ++ (':' :: ' ' :: (pretty fr level value ++ more) ++
        rest)).length ≤ fuel → scanOnce fr fuel (quote key ++ (':' :: ' ' ::
          (pretty fr level value ++ more) ++ rest)) =
        some (.str key, ':' :: ' ' :: (pretty fr level value ++ more) ++ rest) := by
      intro fuel hfuel
      obtain ⟨fuel, rfl⟩ : ∃ f, fuel = f + 1 := ⟨fuel - 1, by simp [quote] at hfuel; omega⟩
      exact scanOnce_quote key _
    exact read_of_scan (by simp [quote]) (skipBlanks_quote key _) hscan (List.cons_ne_nil _ _)
  · rw [mem_lineTails_quote, mem_lineTails_cons (by decide), mem_lineTails_cons (by decide)] at ht
    exact unreadable_value hlines hmore t ht rest

lemma unreadable_cons {c : Char} {cs : List Char} (hc : Printable c)
    (h : Unreadable fr (lineTails cs)) : Unreadable fr (lineTails (c :: cs)) := by
  intro t ht
  rw [mem_lineTails_cons hc] at ht
  exact h t ht

lemma unreadable_printable {cs : List Char} (h : ∀ c ∈ cs, Printable c) :
    Unreadable fr (lineTails cs) := by
  rw [lineTails_printable h]
  exact fun t ht => by cases ht

lemma followed_items (level outer : ℕ) (items : List Json) :
    Followed (prettyItems fr level items ++ (newline outer ++ [']'])) := by
  cases items with
  | nil             => exact followed_closing outer (.inl rfl)
  | cons item items => exact followed_cons (by decide) (by decide) _

mutual

theorem unreadable_lines : ∀ (value : Json) (level : ℕ), Distinct value →
    Unreadable fr (lineTails (pretty fr level value))
  | .null,    _, _ => unreadable_printable (printable_all (l := ['n', 'u', 'l', 'l']) (by decide))
  | .bool b,  _, _ => by
    cases b
    · exact unreadable_printable (printable_all (l := ['f', 'a', 'l', 's', 'e']) (by decide))
    · exact unreadable_printable (printable_all (l := ['t', 'r', 'u', 'e']) (by decide))
  | .int _,   _, _ => unreadable_printable fun _ hc => printable_number (intText_chars hc)
  | .float x, _, _ => unreadable_printable (printable_float x)
  | .str s,   _, _ => unreadable_printable (printable_quote s)
  | .arr [],  _, _ => unreadable_printable (printable_all (l := ['[', ']']) (by decide))
  | .obj [],  _, _ => unreadable_printable (printable_all (l := ['\x7b', '\x7d']) (by decide))
  | .arr (value :: items), level, h =>
    unreadable_cons (by decide) (unreadable_item h.1 (unreadable_lines value (level + 1) h.1)
      (unreadable_items items (level + 1) level h.2) (followed_items (level + 1) level items))
  | .obj ((_, value) :: fields), level, h =>
    unreadable_cons (by decide) (unreadable_field
      (unreadable_lines value (level + 1) h.2.1)
      (unreadable_fields fields (level + 1) level h.2.2))

theorem unreadable_items : ∀ (items : List Json) (level outer : ℕ), DistinctItems items →
    Unreadable fr (lineTails (prettyItems fr level items ++ (newline outer ++ [']'])))
  | [],             _,     outer, _ => unreadable_closing outer (.inl rfl)
  | value :: items, level, outer, h => by
    rw [prettyItems, List.cons_append, List.append_assoc, List.append_assoc]
    exact unreadable_cons (by decide) (unreadable_item h.1 (unreadable_lines value level h.1)
      (unreadable_items items level outer h.2) (followed_items level outer items))

theorem unreadable_fields : ∀ (fields : Dict Json) (level outer : ℕ), DistinctFields fields →
    Unreadable fr (lineTails (prettyFields fr level fields ++ (newline outer ++ ['\x7d'])))
  | [],                   _,     outer, _ => unreadable_closing outer (.inr rfl)
  | (_, value) :: fields, level, outer, h => by
    rw [prettyFields, List.cons_append, List.append_assoc, List.append_assoc, List.cons_append,
      List.cons_append, List.append_assoc]
    exact unreadable_cons (by decide) (unreadable_field (unreadable_lines value level h.1)
      (unreadable_fields fields level outer h.2))

end

end Tails

end Python.Json
