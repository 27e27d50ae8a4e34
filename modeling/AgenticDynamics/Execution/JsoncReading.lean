import AgenticDynamics.Execution.Jsonc

/-!
# Reading JSON with comments

A text that `json.loads` reads goes through the scanner unchanged. So what the scanner leaves of a
text with comments and trailing commas is read as its value exactly if no trailing comma is left.
-/

namespace AgenticDynamics.Execution.Jsonc

open Python Python.Json

/-! ### The scanner on a JSON text -/

/-- The scanner copies the text up to here. -/
def Copies (cs rest : List Char) : Prop :=
  ∃ pre, cs = pre ++ rest ∧ strip .outside cs = pre ++ strip .outside rest

lemma Copies.refl (cs : List Char) : Copies cs cs := ⟨[], rfl, rfl⟩

lemma Copies.trans {cs ds es : List Char} (h₁ : Copies cs ds) (h₂ : Copies ds es) :
    Copies cs es := by
  obtain ⟨pre, rfl, hpre⟩ := h₁
  obtain ⟨post, rfl, hpost⟩ := h₂
  exact ⟨pre ++ post, by simp, by rw [hpre, hpost, List.append_assoc]⟩

lemma Copies.cons {c : Char} (hc : Bland c) {cs rest : List Char} (h : Copies cs rest) :
    Copies (c :: cs) rest :=
  Copies.trans ⟨[c], rfl, strip_plain hc cs⟩ h

lemma copies_dropWhile {p : Char → Bool} (hp : ∀ {c}, p c = true → Bland c) (cs : List Char) :
    Copies cs (cs.dropWhile p) := by
  induction cs with
  | nil => exact .refl []
  | cons c cs ih =>
    cases hc : p c with
    | true => rw [List.dropWhile_cons_of_pos hc]; exact .cons (hp hc) ih
    | false => rw [List.dropWhile_cons_of_neg (by simp [hc])]; exact .refl _

lemma copies_blanks (cs : List Char) : Copies cs (skipBlanks cs) :=
  copies_dropWhile isBlank_plain cs

lemma copies_comma {cs : List Char} (h : closes cs = false) : Copies (',' :: cs) cs :=
  ⟨[','], rfl, by simp [strip, h]⟩

def CopiesString (after : Scanning) (cs rest : List Char) : Prop :=
  ∃ pre, cs = pre ++ rest ∧ strip .inString cs = pre ++ strip after rest

lemma CopiesString.trans {after : Scanning} {cs ds es : List Char}
    (h₁ : CopiesString .inString cs ds) (h₂ : CopiesString after ds es) :
    CopiesString after cs es := by
  obtain ⟨pre, rfl, hpre⟩ := h₁
  obtain ⟨post, rfl, hpost⟩ := h₂
  exact ⟨pre ++ post, by simp, by rw [hpre, hpost, List.append_assoc]⟩

lemma copiesString_escape (c : Char) (cs : List Char) :
    CopiesString .inString ('\\' :: c :: cs) cs :=
  ⟨['\\', c], rfl, by simp [strip]⟩

lemma copiesString_char {c : Char} (h : c ≠ '"' ∧ c ≠ '\\') (cs : List Char) :
    CopiesString .inString (c :: cs) cs :=
  ⟨[c], rfl, by simp [strip, h.1, h.2]⟩

lemma hexDigit?_char {c : Char} {n : ℕ} (h : hexDigit? c = some n) : c ≠ '"' ∧ c ≠ '\\' := by
  constructor
  · rintro rfl
    cases (show hexDigit? '"' = none from by decide).symm.trans h
  · rintro rfl
    cases (show hexDigit? '\\' = none from by decide).symm.trans h

lemma copiesString_hexFour {cs rest : List Char} {n : ℕ} (h : hexFour? cs = some (n, rest)) :
    CopiesString .inString cs rest := by
  match cs with
  | a :: b :: c :: d :: rest' =>
    simp only [hexFour?, Option.bind_eq_bind, Option.bind_eq_some_iff, Option.some.injEq,
      Prod.mk.injEq] at h
    obtain ⟨_, ha, _, hb, _, hc, _, hd, -, rfl⟩ := h
    exact (copiesString_char (hexDigit?_char ha) _).trans <|
      (copiesString_char (hexDigit?_char hb) _).trans <|
      (copiesString_char (hexDigit?_char hc) _).trans (copiesString_char (hexDigit?_char hd) _)
  | [] | [_] | [_, _] | [_, _, _] => simp [hexFour?] at h

lemma copiesString_scanChar {cs rest : List Char} {c : Char} (hstart : cs.head? ≠ some '"')
    (h : scanChar cs = some (c, rest)) : CopiesString .inString cs rest := by
  unfold scanChar at h
  split at h
  · -- an escape of four digits, and perhaps a second one that it makes a pair with
    rename_i digits
    obtain ⟨⟨high, more⟩, hhigh, h⟩ := Option.bind_eq_some_iff.mp h
    have hfirst := (copiesString_escape 'u' digits).trans (copiesString_hexFour hhigh)
    dsimp only at h
    split_ifs at h
    · split at h
      · rename_i digits'
        obtain ⟨⟨low, more'⟩, hlow, h⟩ := Option.bind_eq_some_iff.mp h
        dsimp only at h
        split_ifs at h
        · have hrest : more' = rest := congrArg Prod.snd (Option.some.inj h)
          rw [← hrest]
          exact hfirst.trans <| (copiesString_escape 'u' digits').trans (copiesString_hexFour hlow)
        · cases h; exact hfirst
      · cases h; exact hfirst
    · cases h; exact hfirst
  · obtain ⟨_, -, heq⟩ := Option.map_eq_some_iff.mp h
    cases heq
    exact copiesString_escape _ _
  · rename_i d ds _ hescape
    split_ifs at h
    cases h
    by_cases hd : c = '\\'
    · -- a backslash that is the last character
      subst hd
      cases rest with
      | nil => exact ⟨['\\'], rfl, by simp [strip]⟩
      | cons e ds => exact absurd rfl (hescape e ds rfl)
    · exact copiesString_char ⟨fun hc => hstart (by simp [hc]), hd⟩ _
  · cases h

lemma copiesString_scanChars {fuel : ℕ} {cs s rest : List Char}
    (h : scanChars fuel cs = some (s, rest)) : CopiesString .outside cs rest := by
  induction fuel generalizing cs s with
  | zero => cases h
  | succ fuel ih =>
    unfold scanChars at h
    split at h
    · cases h
      exact ⟨['"'], rfl, by simp [strip]⟩
    · rename_i hquote
      obtain ⟨⟨c, more⟩, hc, h⟩ := Option.bind_eq_some_iff.mp h
      obtain ⟨⟨s', more'⟩, hs, h⟩ := Option.bind_eq_some_iff.mp h
      cases h
      refine (copiesString_scanChar ?_ hc).trans (ih hs)
      intro hhead
      obtain ⟨ds, rfl⟩ := List.head?_eq_some_iff.mp hhead
      exact hquote ds rfl

lemma copies_string {cs rest : List Char} {s : String} (h : scanString cs = some (s, rest)) :
    Copies ('"' :: cs) rest := by
  obtain ⟨⟨s', rest'⟩, hs, heq⟩ := Option.map_eq_some_iff.mp h
  cases heq
  obtain ⟨pre, rfl, hpre⟩ := copiesString_scanChars hs
  exact ⟨'"' :: pre, rfl, by rw [strip, hpre]; rfl⟩

/-! ### The numbers -/

lemma isDigit_plain {c : Char} (h : c.isDigit = true) : Bland c := by
  refine ⟨?_, ?_, ?_⟩ <;> rintro rfl <;> exact absurd h (by decide)

lemma copies_sign (cs : List Char) : Copies cs (takeSign cs).2 := by
  unfold takeSign
  split
  · exact .cons (by decide) (.refl _)
  · exact .refl _

lemma copies_digits (cs : List Char) : Copies cs (takeDigits cs).2 :=
  copies_dropWhile isDigit_plain cs

lemma copies_whole (cs : List Char) : Copies cs (takeWhole cs).2 := by
  unfold takeWhole
  split
  · exact .cons (by decide) (.refl _)
  · exact copies_digits _

lemma copies_fraction (cs : List Char) : Copies cs (takeFraction cs).2 := by
  unfold takeFraction
  split
  · rename_i ds
    have hdigits := copies_digits ds
    split
    · exact .refl _
    · rename_i heq
      rw [heq] at hdigits
      exact .cons (by decide) hdigits
  · exact .refl _

lemma copies_exponentSign (cs : List Char) : Copies cs (takeExponentSign cs).2 := by
  unfold takeExponentSign
  split
  · exact .cons (by decide) (.refl _)
  · exact .cons (by decide) (.refl _)
  · exact .refl _

lemma copies_exponent (cs : List Char) : Copies cs (takeExponent cs).2 := by
  unfold takeExponent
  split
  · exact .refl _
  · rename_i e ds
    split_ifs with he
    · have hdigits := (copies_exponentSign ds).trans (copies_digits _)
      split
      · exact .refl _
      · rename_i heq
        rw [heq] at hdigits
        refine .cons ?_ hdigits
        obtain rfl | rfl := he <;> decide
    · exact .refl _

def Opens (cs : List Char) : Prop := cs.head?.any isCloser = false

lemma copies_number {cs text rest : List Char} {isFloat : Bool}
    (h : matchNumber cs = some (text, isFloat, rest)) : Copies cs rest ∧ Opens cs := by
  constructor
  · unfold matchNumber at h
    dsimp only at h
    split_ifs at h
    cases h
    exact (copies_sign cs).trans <| (copies_whole _).trans <|
      (copies_fraction _).trans (copies_exponent _)
  · cases cs with
    | nil => rfl
    | cons c cs =>
      by_contra hc
      have hcloser : c = ']' ∨ c = '\x7d' := by
        simpa [Opens, isCloser, or_iff_not_imp_left] using hc
      have hnone : matchNumber (c :: cs) = none := by
        obtain rfl | rfl := hcloser <;>
          simp [matchNumber, takeSign, takeWhole, takeDigits, Char.isDigit]
      cases hnone.symm.trans h

/-! ### The documents -/

lemma copies_cons {c : Char} (hc : Bland c) {cs rest : List Char} (h : skipBlanks cs = c :: rest) :
    Copies cs rest := by
  have hblanks := copies_blanks cs
  rw [h] at hblanks
  exact hblanks.trans (.cons hc (.refl rest))

lemma copies_next {cs rest : List Char} (h : skipBlanks cs = ',' :: rest)
    (hopens : Opens (skipBlanks rest)) : Copies cs (skipBlanks rest) := by
  have hblanks := copies_blanks cs
  rw [h] at hblanks
  exact hblanks.trans ((copies_comma hopens).trans (copies_blanks rest))

variable (fr : FloatReader)

/-- The scanner copies every document that the decoder reads, whatever its fuel. -/
theorem copies_scan (fuel : ℕ) :
    (∀ {cs rest v}, scanOnce fr fuel cs = some (v, rest) → Copies cs rest ∧ Opens cs) ∧
    (∀ {cs rest vs}, scanItems fr fuel cs = some (vs, rest) → Copies cs rest ∧ Opens cs) ∧
    (∀ {cs rest v done}, scanFields fr fuel done cs = some (v, rest) →
      Copies cs rest ∧ Opens cs) := by
  induction fuel with
  | zero =>
    refine ⟨fun h => ?_, fun h => ?_, fun h => ?_⟩
    · rw [scanOnce] at h; cases h
    · rw [scanItems] at h; cases h
    · rw [scanFields] at h; cases h
  | succ fuel ih =>
    obtain ⟨ihOnce, ihItems, ihFields⟩ := ih
    refine ⟨fun {cs rest v} h => ?_, fun {cs rest vs} h => ?_, fun {cs rest v done} h => ?_⟩
    · unfold scanOnce at h
      split at h
      · obtain ⟨⟨s, more⟩, hs, heq⟩ := Option.map_eq_some_iff.mp h
        cases heq
        exact ⟨copies_string hs, rfl⟩
      · refine ⟨.cons (by decide) ?_, rfl⟩
        split at h
        · rename_i hskip
          cases h
          exact copies_cons (by decide) hskip
        · exact (copies_blanks _).trans (ihFields h).1
      · refine ⟨.cons (by decide) ?_, rfl⟩
        split at h
        · rename_i hskip
          cases h
          exact copies_cons (by decide) hskip
        · obtain ⟨⟨items, more⟩, hitems, heq⟩ := Option.map_eq_some_iff.mp h
          cases heq
          exact (copies_blanks _).trans (ihItems hitems).1
      case h_10 =>
        obtain ⟨⟨text, isFloat, more⟩, hnumber, heq⟩ := Option.map_eq_some_iff.mp h
        cases heq
        exact copies_number hnumber
      all_goals
        cases h
        refine ⟨?_, rfl⟩
        repeat refine .cons (by decide) ?_
        exact .refl _
    · unfold scanItems at h
      obtain ⟨⟨value, more⟩, hvalue, h⟩ := Option.bind_eq_some_iff.mp h
      obtain ⟨hcopies, hopens⟩ := ihOnce hvalue
      refine ⟨hcopies.trans ?_, hopens⟩
      dsimp only at h
      split at h
      · rename_i hskip
        cases h
        exact copies_cons (by decide) hskip
      · rename_i hskip
        obtain ⟨⟨items, more'⟩, hitems, h⟩ := Option.bind_eq_some_iff.mp h
        cases h
        obtain ⟨hrest, hopens'⟩ := ihItems hitems
        exact (copies_next hskip hopens').trans hrest
      · cases h
    · unfold scanFields at h
      split at h
      · obtain ⟨⟨key, more⟩, hkey, h⟩ := Option.bind_eq_some_iff.mp h
        refine ⟨(copies_string hkey).trans ?_, rfl⟩
        dsimp only at h
        split at h
        · rename_i hcolon
          obtain ⟨⟨value, more'⟩, hvalue, h⟩ := Option.bind_eq_some_iff.mp h
          refine (copies_cons (by decide) hcolon).trans <|
            (copies_blanks _).trans ((ihOnce hvalue).1.trans ?_)
          dsimp only at h
          split at h
          · rename_i hskip
            cases h
            exact copies_cons (by decide) hskip
          · rename_i hskip
            obtain ⟨hrest, hopens'⟩ := ihFields h
            exact (copies_next hskip hopens').trans hrest
          · cases h
        · cases h
      · cases h

lemma strip_of_read {cs : List Char} {v : Json} (h : read fr cs = some v) : stripJsonc cs = cs := by
  unfold Json.read at h
  split_ifs at h
  split at h
  · rename_i value rest hscan
    split_ifs at h with hrest
    have hcopies : Copies cs [] := by
      rw [← hrest]
      exact (copies_blanks cs).trans <|
        ((copies_scan fr _).1 hscan).1.trans (copies_blanks rest)
    obtain ⟨pre, rfl, hpre⟩ := hcopies
    simpa [stripJsonc, strip] using hpre
  · cases h

/-! ### The texts with comments -/

/-- Every trailing comma has nothing but blanks between it and the bracket. -/
def Tidy (ps : List Piece) : Prop :=
  ∀ before after, ps = before ++ .comma :: after → closing after = true →
    closingAtOnce after = true

/-- The strings of the text are copied as they stand. -/
def Commented.KeepsLiterals (d : Commented) : Prop :=
  ∀ before body after, d.pieces = before ++ .literal body :: after →
    stripJsonc d.text = stripJsonc (Commented.text ⟨before, none⟩) ++
      ((Piece.literal body).text ++ stripJsonc (Commented.text ⟨after, d.remark⟩))

lemma Tidy.tail {p : Piece} {ps : List Piece} (h : Tidy (p :: ps)) : Tidy ps :=
  fun before after heq => h (p :: before) after (by rw [heq]; rfl)

lemma tidy_cons {p : Piece} {ps : List Piece} (h : Tidy ps)
    (hp : p = .comma → closing ps = true → closingAtOnce ps = true) : Tidy (p :: ps) := by
  intro before after heq
  cases before with
  | nil => obtain ⟨rfl, rfl⟩ := List.cons.inj heq; exact hp rfl
  | cons q before => exact h before after (List.cons.inj heq).2

lemma without_cons {dropped : List Piece → Bool} {p : Piece} (hp : p ≠ .comma) (ps : List Piece) :
    without dropped (p :: ps) = p.bare ++ without dropped ps := by
  cases p with
  | comma => exact absurd rfl hp
  | _ => rfl

lemma blank_gap (p : Piece) (h : p.blank = true) : p.gap = true := by
  cases p <;> simp_all [Piece.blank, Piece.gap]

lemma closer_gap {p : Piece} (h : p.closer = true) : p.gap = false := by
  cases p with
  | char c _ =>
    have hc : c = ']' ∨ c = '\x7d' := by simpa [Piece.closer, isCloser] using h
    obtain rfl | rfl := hc <;> rfl
  | _ => simp_all [Piece.closer]

lemma closing_of_atOnce {ps : List Piece} (h : closingAtOnce ps = true) : closing ps = true := by
  induction ps with
  | nil => exact h
  | cons p ps ih =>
    cases hp : p.blank with
    | true => simp_all [closingAtOnce, closing, blank_gap p hp]
    | false =>
      have hcloser : p.closer = true := by simpa [closingAtOnce, hp] using h
      simp [closing, closer_gap hcloser, hcloser]

lemma without_tidy {ps : List Piece} (h : Tidy ps) :
    without closingAtOnce ps = without closing ps := by
  induction ps with
  | nil => rfl
  | cons p ps ih =>
    by_cases hp : p = .comma
    · subst hp
      have hiff : closingAtOnce ps = closing ps :=
        Bool.eq_iff_iff.mpr ⟨closing_of_atOnce, h [] ps rfl⟩
      rw [without, without, hiff, ih h.tail]
    · rw [without_cons hp, without_cons hp, ih h.tail]

lemma strip_bare {p : Piece} (hp : p ≠ .comma) (cs : List Char) :
    strip .outside (p.bare ++ cs) = p.bare ++ strip .outside cs := by
  cases p with
  | line body h e he =>
    refine strip_plain (isBlank_plain ?_) cs
    obtain rfl | rfl := he <;> rfl
  | block body h => rfl
  | _ => exact strip_piece hp cs

/-- Without the comments, a trailing comma has only blanks between it and the bracket. -/
lemma closes_without {ps : List Piece} (h : closing ps = true) :
    closes (without closingAtOnce ps) = true := by
  induction ps with
  | nil => cases h
  | cons p ps ih =>
    cases p with
    | char c hc =>
      change closes (c :: without closingAtOnce ps) = true
      cases hblank : Json.isBlank c with
      | true =>
        rw [closes_blank hblank]
        exact ih (by simpa [closing, Piece.gap, hblank] using h)
      | false =>
        rw [closes_cons hblank]
        simpa [closing, Piece.gap, Piece.closer, hblank] using h
    | line body hbody e he =>
      change closes (e :: without closingAtOnce ps) = true
      rw [closes_blank (by obtain rfl | rfl := he <;> rfl)]
      exact ih h
    | block body hbody => exact ih h
    | _ => cases h

lemma strip_length (m : Scanning) (cs : List Char) : (strip m cs).length ≤ cs.length := by
  fun_induction strip m cs <;> simp only [List.length_cons, List.length_nil] <;> omega

/-- The scanner takes out what it left of an untidy text. -/
lemma strip_untidy {ps : List Piece} (h : ¬ Tidy ps) :
    (strip .outside (without closingAtOnce ps)).length < (without closingAtOnce ps).length := by
  induction ps with
  | nil => exact absurd (fun before after heq => by simp at heq) h
  | cons p ps ih =>
    by_cases hp : p = .comma
    · subst hp
      rw [without]
      split_ifs with honce
      · exact ih fun htidy => h (tidy_cons htidy fun _ _ => honce)
      · rw [strip]
        have hlength := strip_length .outside (without closingAtOnce ps)
        split_ifs with hcloses
        · exact Nat.lt_succ_of_le hlength
        · refine Nat.succ_lt_succ (ih fun htidy => h (tidy_cons htidy fun _ hclosing => ?_))
          exact absurd (closes_without hclosing) hcloses
    · rw [without_cons hp, strip_bare hp, List.length_append, List.length_append]
      exact Nat.add_lt_add_left (ih fun htidy => h (tidy_cons htidy fun h => absurd h hp)) _

lemma closingAtOnce_literal (before : List Piece) (body : List Stroke) (after : List Piece) :
    closingAtOnce (before ++ .literal body :: after) = closingAtOnce before := by
  induction before with
  | nil => rfl
  | cons p before ih =>
    cases hp : p.blank with
    | true => simpa [closingAtOnce, hp] using ih
    | false => simp [closingAtOnce, hp]

lemma Commented.keepsLiterals (d : Commented) : d.KeepsLiterals := by
  obtain ⟨pieces, remark⟩ := d
  rintro before body after rfl
  rw [strip_text, strip_text, strip_text]
  induction before with
  | nil => rfl
  | cons p before ih =>
    by_cases hp : p = .comma
    · subst hp
      rw [List.cons_append, without, without, closingAtOnce_literal]
      split_ifs
      · exact ih
      · exact congrArg _ ih
    · rw [List.cons_append, without_cons hp, without_cons hp, ih, List.append_assoc]

/-- What the scanner leaves is read as the value, with the strings as they stand, exactly if no
comment stands between a trailing comma and its bracket. -/
theorem stripJsonc_reads_iff (d : Commented) {v : Json} (h : read fr d.json = some v) :
    read fr (stripJsonc d.text) = some v ∧ d.KeepsLiterals ↔ Tidy d.pieces := by
  constructor
  · rintro ⟨hread, -⟩
    by_contra huntidy
    have hlt := strip_untidy huntidy
    have hsame := strip_of_read fr hread
    rw [strip_text, stripJsonc] at hsame
    rw [hsame] at hlt
    exact lt_irrefl _ hlt
  · intro htidy
    refine ⟨?_, d.keepsLiterals⟩
    rw [strip_text, without_tidy htidy]
    exact h

/-- A list of one number, with something between its trailing comma and the bracket. -/
def numberList (gap : List Piece) : Commented where
  pieces := .char '[' (by decide) :: .char '1' (by decide) :: .comma ::
    (gap ++ [.char ']' (by decide)])

theorem stripJsonc_reads_list :
    read .fraction (stripJsonc (numberList [.char '\n' (by decide)]).text) =
      some (.arr [.int 1]) ∧ (numberList [.char '\n' (by decide)]).KeepsLiterals := by
  refine (stripJsonc_reads_iff .fraction _ rfl).mpr ?_
  refine tidy_cons (tidy_cons (tidy_cons (tidy_cons (tidy_cons ?_ ?_) ?_) ?_) ?_) ?_
  all_goals simp [Tidy, closingAtOnce, Piece.blank, Piece.closer, Json.isBlank, isCloser]

def remark : Piece := .line ['c'] (by simp) '\n' (.inr rfl)

/-- A comment of the line after the trailing comma: the comma is left. -/
theorem remarked_comma_left :
    (numberList [remark]).text = "[1,//c\n]".toList ∧
      read .fraction (numberList [remark]).json = some (.arr [.int 1]) ∧
      read .fraction (stripJsonc (numberList [remark]).text) = none := by
  have hstrip : stripJsonc (numberList [remark]).text = ['[', '1', ',', '\n', ']'] := by
    decide +kernel
  refine ⟨by decide +kernel, rfl, ?_⟩
  rw [hstrip]
  rfl

end AgenticDynamics.Execution.Jsonc
