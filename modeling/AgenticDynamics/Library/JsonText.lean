import AgenticDynamics.Library.JsonKeys

/-!
# The compact text of a JSON document

`json.dumps` with sorted keys and compact separators, every character outside of ASCII escaped.
A text can be read in one way only, so two documents have the same text exactly when they are
equal up to the order of their keys.
-/

namespace Python.Json

/-! ### Escapes -/

/-- The four digits of a `\u` escape. -/
def hexFour (n : ℕ) : List Char :=
  [n / 4096 % 16, n / 256 % 16, n / 16 % 16, n % 16].map Nat.digitChar

def escapeUnit (n : ℕ) : List Char := '\\' :: 'u' :: hexFour n

/-- `ESCAPE_DCT`. -/
def shortEscape (c : Char) : Option Char :=
  [('\\', '\\'), ('"', '"'), ('\x08', 'b'), ('\x0c', 'f'), ('\n', 'n'), ('\r', 'r'),
    ('\t', 't')].lookup c

/-- A character of a string; what does not fit into four digits is written as a surrogate pair. -/
def escape (c : Char) : List Char :=
  match shortEscape c with
  | some e => ['\\', e]
  | none   =>
    if 32 ≤ c.toNat ∧ c.toNat ≤ 126 then [c]
    else if c.toNat < 0x10000 then escapeUnit c.toNat
    else
      escapeUnit (0xd800 + (c.toNat - 0x10000) / 0x400) ++
        escapeUnit (0xdc00 + (c.toNat - 0x10000) % 0x400)

/-- `py_encode_basestring_ascii`. -/
def quote (s : String) : List Char := '"' :: s.toList.flatMap escape ++ ['"']

/-! ### Reading a character back -/

def hexValue (c : Char) : ℕ := if c.toNat ≤ 57 then c.toNat - 48 else c.toNat - 87

lemma hexValue_digitChar {n : ℕ} (h : n < 16) : hexValue (Nat.digitChar n) = n := by
  interval_cases n <;> rfl

def unitValue (a b c d : Char) : ℕ :=
  ((hexValue a * 16 + hexValue b) * 16 + hexValue c) * 16 + hexValue d

lemma unitValue_hexFour {n : ℕ} (h : n < 0x10000) :
    unitValue (Nat.digitChar (n / 4096 % 16)) (Nat.digitChar (n / 256 % 16))
      (Nat.digitChar (n / 16 % 16)) (Nat.digitChar (n % 16)) = n := by
  have hlt (m : ℕ) : m % 16 < 16 := Nat.mod_lt m (by omega)
  simp only [unitValue, hexValue_digitChar (hlt _)]
  omega

/-- The character that a short escape stands for. -/
def longEscape (e : Char) : Char :=
  ([('b', '\x08'), ('f', '\x0c'), ('n', '\n'), ('r', '\r'), ('t', '\t')].lookup e).getD e

def unescape : List Char → Option (Char × List Char)
  | '\\' :: 'u' :: a :: b :: c :: d :: rest =>
    let n := unitValue a b c d
    if 0xd800 ≤ n ∧ n < 0xdc00 then
      match rest with
      | _ :: _ :: a' :: b' :: c' :: d' :: rest' =>
        let m := unitValue a' b' c' d'
        some (.ofNat (0x10000 + (n - 0xd800) * 0x400 + (m - 0xdc00)), rest')
      | _ => none
    else some (.ofNat n, rest)
  | '\\' :: e :: rest                       => some (longEscape e, rest)
  | c :: rest                               => some (c, rest)
  | []                                      => none

lemma toNat_not_surrogate (c : Char) : c.toNat < 0xd800 ∨ 0xdfff < c.toNat ∧ c.toNat < 0x110000 :=
  c.valid

lemma unescape_unit {n : ℕ} (h : n < 0x10000) (hn : ¬ (0xd800 ≤ n ∧ n < 0xdc00))
    (rest : List Char) : unescape (escapeUnit n ++ rest) = some (.ofNat n, rest) := by
  simp only [escapeUnit, hexFour, List.map_cons, List.map_nil, List.cons_append, List.nil_append,
    unescape, unitValue_hexFour h, if_neg hn]

lemma unescape_pair {n m : ℕ} (hn : 0xd800 ≤ n ∧ n < 0xdc00) (hm : m < 0x10000)
    (rest : List Char) : unescape (escapeUnit n ++ escapeUnit m ++ rest) =
      some (.ofNat (0x10000 + (n - 0xd800) * 0x400 + (m - 0xdc00)), rest) := by
  have hn' : n < 0x10000 := by omega
  simp only [escapeUnit, hexFour, List.map_cons, List.map_nil, List.cons_append, List.nil_append,
    unescape, unitValue_hexFour hn', unitValue_hexFour hm, if_pos hn]

lemma shortEscape_eq_some {c e : Char} (h : shortEscape c = some e) :
    longEscape e = c ∧ e ≠ 'u' := by
  simp only [shortEscape, List.lookup_cons, List.lookup_nil] at h
  repeat' split at h
  all_goals cases h
  all_goals
    rename_i heq
    rw [beq_iff_eq] at heq
    rw [heq]
    exact ⟨by decide, by decide⟩

lemma shortEscape_backslash : shortEscape '\\' = some '\\' := rfl

lemma unescape_escape (c : Char) (rest : List Char) :
    unescape (escape c ++ rest) = some (c, rest) := by
  rw [escape]
  cases hshort : shortEscape c with
  | some e =>
    obtain ⟨rfl, hu⟩ := shortEscape_eq_some hshort
    simp [unescape, hu]
  | none =>
    have hbackslash : c ≠ '\\' := by
      rintro rfl
      rw [shortEscape_backslash] at hshort
      cases hshort
    dsimp only
    split_ifs with hplain hunit
    · simp [unescape, hbackslash]
    · have hvalid := toNat_not_surrogate c
      rw [unescape_unit hunit (by omega), Char.ofNat_toNat]
    · have hvalid := toNat_not_surrogate c
      rw [unescape_pair (by omega) (by omega)]
      have hvalue : 0x10000 + (0xd800 + (c.toNat - 0x10000) / 0x400 - 0xd800) * 0x400 +
          (0xdc00 + (c.toNat - 0x10000) % 0x400 - 0xdc00) = c.toNat := by omega
      rw [hvalue, Char.ofNat_toNat]

lemma flatMap_escape_unique {cs ds r s : List Char}
    (h : cs.flatMap escape ++ '"' :: r = ds.flatMap escape ++ '"' :: s) : cs = ds ∧ r = s := by
  have hquote (c : Char) (t u : List Char) : '"' :: t ≠ escape c ++ u := by
    intro heq
    have hread : unescape ('"' :: t) = some (c, u) := by rw [heq, unescape_escape]
    obtain ⟨rfl, -⟩ : '"' = c ∧ t = u := by simpa [unescape] using hread
    have hescape : escape '"' = ['\\', '"'] := rfl
    simp [hescape] at heq
  induction cs generalizing ds with
  | nil =>
    cases ds with
    | nil => exact ⟨rfl, by simpa using h⟩
    | cons d ds =>
      rw [List.flatMap_cons, List.append_assoc] at h
      exact absurd h (hquote d r _)
  | cons c cs ih =>
    cases ds with
    | nil =>
      rw [List.flatMap_cons, List.append_assoc] at h
      exact absurd h.symm (hquote c s _)
    | cons d ds =>
      simp only [List.flatMap_cons, List.append_assoc] at h
      have hread := congrArg unescape h
      rw [unescape_escape, unescape_escape, Option.some_inj, Prod.mk.injEq] at hread
      obtain ⟨rfl, hrest⟩ := hread
      obtain ⟨rfl, hrs⟩ := ih hrest
      exact ⟨rfl, hrs⟩

lemma quote_unique {a b : String} {r s : List Char} (h : quote a ++ r = quote b ++ s) :
    a = b ∧ r = s := by
  simp only [quote, List.cons_append, List.append_assoc, List.cons.injEq, true_and,
    List.nil_append] at h
  obtain ⟨hchars, hrs⟩ := flatMap_escape_unique h
  exact ⟨String.toList_injective hchars, hrs⟩

/-! ### Numbers -/

/-- `int.__repr__`. -/
def intText : ℤ → List Char
  | .ofNat n   => Nat.toDigits 10 n
  | .negSucc n => '-' :: Nat.toDigits 10 (n + 1)

/-- `float.__repr__`, with the names of the values that are not finite: the text of a float gives
the float back, and it is no text of an integer. -/
structure FloatText where
  text : PyFloat → List Char
  injective : Function.Injective text
  chars : ∀ x, ∀ c ∈ text x, c ∉ [',', ']', '\x7d']
  start : ∀ x, ∃ c cs, text x = c :: cs ∧ c ∉ ['n', 't', 'f', '"', '[', '\x7b']
  ne_int : ∀ x n, text x ≠ intText n

lemma toDigits_injective : Function.Injective (Nat.toDigits 10) := by
  intro m n h
  rw [← Nat.ofDigitChars_ten_toDigits (n := m), h, Nat.ofDigitChars_ten_toDigits]

lemma isDigit_of_mem {n : ℕ} {c : Char} (h : c ∈ Nat.toDigits 10 n) : c.isDigit = true :=
  Nat.isDigit_of_mem_toDigits (by decide) (by decide) h

lemma ne_of_isDigit {c d : Char} (hc : c.isDigit = true) (hd : d.isDigit = false) : c ≠ d := by
  rintro rfl
  rw [hc] at hd
  cases hd

lemma intText_chars {n : ℤ} {c : Char} (h : c ∈ intText n) : c = '-' ∨ c.isDigit = true := by
  cases n with
  | ofNat n   => exact .inr (isDigit_of_mem h)
  | negSucc n => exact (List.mem_cons.mp h).imp_right isDigit_of_mem

lemma intText_ne_nil (n : ℤ) : intText n ≠ [] := by
  cases n with
  | ofNat n   => exact Nat.toDigits_ne_nil
  | negSucc n => exact List.cons_ne_nil _ _

lemma intText_injective : Function.Injective intText := by
  intro m n h
  cases m with
  | ofNat m =>
    cases n with
    | ofNat n => rw [toDigits_injective h]
    | negSucc n =>
      have hmem : '-' ∈ Nat.toDigits 10 m := by
        show '-' ∈ intText (.ofNat m)
        rw [h]
        exact List.mem_cons_self
      exact absurd (isDigit_of_mem hmem) (by decide)
  | negSucc m =>
    cases n with
    | ofNat n =>
      have hmem : '-' ∈ Nat.toDigits 10 n := by
        show '-' ∈ intText (.ofNat n)
        rw [← h]
        exact List.mem_cons_self
      exact absurd (isDigit_of_mem hmem) (by decide)
    | negSucc n =>
      have hsucc : m + 1 = n + 1 := toDigits_injective (List.cons.inj h).2
      rw [Nat.succ.inj hsucc]

lemma span_unique {p : Char → Prop} {xs ys r s : List Char} (hxs : ∀ c ∈ xs, ¬ p c)
    (hys : ∀ c ∈ ys, ¬ p c) (hr : ∀ c ∈ r.head?, p c) (hs : ∀ c ∈ s.head?, p c)
    (h : xs ++ r = ys ++ s) : xs = ys ∧ r = s := by
  induction xs generalizing ys with
  | nil =>
    cases ys with
    | nil => exact ⟨rfl, h⟩
    | cons y ys =>
      rw [List.nil_append] at h
      exact absurd (hr y (by rw [h]; rfl)) (hys y List.mem_cons_self)
  | cons x xs ih =>
    cases ys with
    | nil =>
      rw [List.nil_append] at h
      exact absurd (hs x (by rw [← h]; rfl)) (hxs x List.mem_cons_self)
    | cons y ys =>
      obtain ⟨rfl, htail⟩ := List.cons.inj h
      obtain ⟨rfl, hrs⟩ := ih (fun c hc => hxs c (List.mem_cons_of_mem _ hc))
        (fun c hc => hys c (List.mem_cons_of_mem _ hc)) htail
      exact ⟨rfl, hrs⟩

/-! ### A text of floats -/

/-- A float as its numerator and denominator. -/
def fractionText : PyFloat → List Char
  | .finite q  => intText q.num ++ '.' :: Nat.toDigits 10 q.den
  | .inf false => ['I', 'n', 'f', 'i', 'n', 'i', 't', 'y']
  | .inf true  => ['-', 'I', 'n', 'f', 'i', 'n', 'i', 't', 'y']
  | .nan       => ['N', 'a', 'N']

lemma fractionText_mem (q : ℚ) : '.' ∈ fractionText (.finite q) :=
  List.mem_append_right _ List.mem_cons_self

lemma intText_no_dot {n : ℤ} {c : Char} (h : c ∈ intText n) : c ≠ '.' := by
  rcases intText_chars h with rfl | hdigit
  · decide
  · exact ne_of_isDigit hdigit rfl

lemma fractionText_injective : Function.Injective fractionText := by
  have hname {q : ℚ} {x : PyFloat} (hx : '.' ∉ fractionText x) :
      fractionText (.finite q) ≠ fractionText x := fun h => hx (h ▸ fractionText_mem q)
  intro x y h
  match x, y with
  | .finite q, .finite r =>
    have hdot (d : List Char) : ∀ c ∈ ('.' :: d).head?, c = '.' := fun c hc => by
      cases hc
      rfl
    obtain ⟨hnum, hden⟩ := span_unique (p := (· = '.')) (fun _ => intText_no_dot)
      (fun _ => intText_no_dot) (hdot _) (hdot _) h
    have hnum' := intText_injective hnum
    have hden' := toDigits_injective (List.cons.inj hden).2
    rw [Rat.ext hnum' hden']
  | .finite q, .inf b => cases b <;> exact absurd h (hname (by decide))
  | .finite q, .nan => exact absurd h (hname (by decide))
  | .inf b, .finite r => cases b <;> exact absurd h.symm (hname (by decide))
  | .nan, .finite r => exact absurd h.symm (hname (by decide))
  | .inf b, .inf b' => cases b <;> cases b' <;> first | rfl | exact absurd h (by decide)
  | .inf b, .nan => cases b <;> exact absurd h (by decide)
  | .nan, .inf b => cases b <;> exact absurd h (by decide)
  | .nan, .nan => rfl

def FloatText.fraction : FloatText where
  text := fractionText
  injective := fractionText_injective
  chars := by
    intro x
    match x with
    | .finite q =>
      intro c hc
      have hdigit {c : Char} (h : c.isDigit = true) : c ∉ [',', ']', '\x7d'] := by
        have hne (d : Char) (hd : d.isDigit = false) : c ≠ d := ne_of_isDigit h hd
        simp [hne]
      rcases List.mem_append.mp hc with hc | hc
      · rcases intText_chars hc with rfl | hc
        · decide
        · exact hdigit hc
      · rcases List.mem_cons.mp hc with rfl | hc
        · decide
        · exact hdigit (isDigit_of_mem hc)
    | .inf false => simp [fractionText]
    | .inf true => simp [fractionText]
    | .nan => simp [fractionText]
  start := by
    intro x
    match x with
    | .finite q =>
      obtain ⟨c, cs, hcs⟩ := List.exists_cons_of_ne_nil (intText_ne_nil q.num)
      have htext : fractionText (.finite q) = c :: (cs ++ '.' :: Nat.toDigits 10 q.den) := by
        show intText q.num ++ '.' :: Nat.toDigits 10 q.den = c :: (cs ++ _)
        rw [hcs, List.cons_append]
      refine ⟨c, _, htext, ?_⟩
      rcases intText_chars (n := q.num) (by rw [hcs]; exact List.mem_cons_self) with rfl | hdigit
      · decide
      · have hne (d : Char) (hd : d.isDigit = false) : c ≠ d := ne_of_isDigit hdigit hd
        simp [hne]
    | .inf false => exact ⟨_, _, rfl, by decide⟩
    | .inf true => exact ⟨_, _, rfl, by decide⟩
    | .nan => exact ⟨_, _, rfl, by decide⟩
  ne_int := by
    intro x n h
    have hletter {c : Char} (hc : c ∈ fractionText x) : c = '-' ∨ c.isDigit = true := by
      rw [h] at hc
      exact intText_chars hc
    match x with
    | .finite q =>
      have hdot : '.' ∈ intText n := by
        rw [← h]
        exact fractionText_mem q
      exact intText_no_dot hdot rfl
    | .inf false => exact absurd (hletter (c := 'I') (by decide)) (by decide)
    | .inf true => exact absurd (hletter (c := 'I') (by decide)) (by decide)
    | .nan => exact absurd (hletter (c := 'N') (by decide)) (by decide)

/-! ### Documents -/

section Render

variable (ft : FloatText)

mutual

/-- The text of a document, the keys of its objects as they stand. -/
def render : Json → List Char
  | .null       => ['n', 'u', 'l', 'l']
  | .bool true  => ['t', 'r', 'u', 'e']
  | .bool false => ['f', 'a', 'l', 's', 'e']
  | .int n      => intText n
  | .float x    => ft.text x
  | .str s      => quote s
  | .arr items  => '[' :: (renderItems items).tail ++ [']']
  | .obj fields => '\x7b' :: (renderFields fields).tail ++ ['\x7d']

/-- Every item with a separator before it. -/
def renderItems : List Json → List Char
  | []            => []
  | value :: rest => ',' :: render value ++ renderItems rest

def renderFields : Dict Json → List Char
  | []                   => []
  | (key, value) :: rest => ',' :: quote key ++ ':' :: render value ++ renderFields rest

end

/-- `json.dumps(value, sort_keys=True, separators=(",", ":"))`. -/
def dumps (value : Json) : String := String.ofList (render ft value.sortKeys)

variable {ft}

/-! ### Reading a document back -/

/-- The text goes on with a separator or a closing bracket, or it is over. -/
def Delimited (r : List Char) : Prop := ∀ c ∈ r.head?, c ∈ [',', ']', '\x7d']

lemma delimited_nil : Delimited [] := fun _ hc => by cases hc

lemma delimited_cons {c : Char} {r : List Char} (h : c ∈ [',', ']', '\x7d']) :
    Delimited (c :: r) := by
  intro c' hc'
  cases hc'
  exact h

/-- The character that opens a string, a list or an object. -/
def opener : Json → Option Char
  | .str _ => some '"'
  | .arr _ => some '['
  | .obj _ => some '\x7b'
  | _      => none

variable (ft) in
lemma render_start (value : Json) : ∃ c cs, render ft value = c :: cs ∧
    c ∉ [',', ']', '\x7d'] ∧ (if c ∈ ['"', '[', '\x7b'] then some c else none) = opener value := by
  cases value with
  | null => exact ⟨_, _, rfl, by decide, rfl⟩
  | bool b => cases b <;> exact ⟨_, _, rfl, by decide, rfl⟩
  | int n =>
    obtain ⟨c, cs, hcs⟩ := List.exists_cons_of_ne_nil (intText_ne_nil n)
    refine ⟨c, cs, hcs, ?_⟩
    rcases intText_chars (n := n) (by rw [hcs]; exact List.mem_cons_self) with rfl | hdigit
    · exact ⟨by decide, rfl⟩
    · have hne (d : Char) (hd : d.isDigit = false) : c ≠ d := ne_of_isDigit hdigit hd
      simp [opener, hne]
  | float x =>
    obtain ⟨c, cs, hcs, hstart⟩ := ft.start x
    refine ⟨c, cs, hcs, ft.chars x c (by rw [hcs]; exact List.mem_cons_self), ?_⟩
    simp only [List.mem_cons, List.not_mem_nil, or_false, not_or] at hstart
    simp [opener, hstart]
  | str s => exact ⟨_, _, rfl, by decide, rfl⟩
  | arr items => exact ⟨_, _, rfl, by decide, rfl⟩
  | obj fields => exact ⟨_, _, rfl, by decide, rfl⟩

lemma opener_eq {v w : Json} {r s : List Char} (h : render ft v ++ r = render ft w ++ s) :
    opener v = opener w := by
  obtain ⟨c, cs, hv, -, hopen⟩ := render_start ft v
  obtain ⟨d, ds, hw, -, hopen'⟩ := render_start ft w
  rw [hv, hw] at h
  obtain ⟨rfl, -⟩ := List.cons.inj h
  exact hopen.symm.trans hopen'

lemma token_chars {v : Json} (h : opener v = none) :
    ∀ c ∈ render ft v, c ∉ [',', ']', '\x7d'] := by
  cases v with
  | null => simp [render]
  | bool b => cases b <;> simp [render]
  | int n =>
    intro c hc
    rcases intText_chars hc with rfl | hdigit
    · decide
    · have hne (d : Char) (hd : d.isDigit = false) : c ≠ d := ne_of_isDigit hdigit hd
      simp [hne]
  | float x => exact ft.chars x
  | str s => cases h
  | arr items => cases h
  | obj fields => cases h

lemma number_ne_name {v : Json} (hv : (∃ n, v = .int n) ∨ ∃ x, v = .float x) {c : Char}
    {cs : List Char} (hc : c ∈ ['n', 't', 'f']) : render ft v ≠ c :: cs := by
  intro h
  rcases hv with ⟨n, rfl⟩ | ⟨x, rfl⟩
  · rw [render] at h
    rcases intText_chars (n := n) (by rw [h]; exact List.mem_cons_self) with rfl | hdigit
    · exact absurd hc (by decide)
    · have hne (d : Char) (hd : d.isDigit = false) : c ≠ d := ne_of_isDigit hdigit hd
      simp [hne] at hc
  · obtain ⟨d, ds, hd, hstart⟩ := ft.start x
    rw [render, hd] at h
    obtain ⟨rfl, -⟩ := List.cons.inj h
    simp only [List.mem_cons, List.not_mem_nil, or_false] at hc hstart
    tauto

lemma token_injective {v w : Json} (hv : opener v = none) (hw : opener w = none)
    (h : render ft v = render ft w) : v = w := by
  have hint (n : ℤ) (c : Char) (cs : List Char) (hc : c ∈ ['n', 't', 'f']) :
      render ft (.int n) ≠ c :: cs := number_ne_name (.inl ⟨n, rfl⟩) hc
  have hfloat (x : PyFloat) (c : Char) (cs : List Char) (hc : c ∈ ['n', 't', 'f']) :
      render ft (.float x) ≠ c :: cs := number_ne_name (.inr ⟨x, rfl⟩) hc
  cases v with
  | null =>
    cases w with
    | null => rfl
    | bool b => cases b <;> simp [render] at h
    | int n => exact absurd h.symm (hint n _ _ (by decide))
    | float x => exact absurd h.symm (hfloat x _ _ (by decide))
    | _ => cases hw
  | bool b =>
    cases w with
    | null => cases b <;> simp [render] at h
    | bool b' => cases b <;> cases b' <;> first | rfl | simp [render] at h
    | int n => cases b <;> exact absurd h.symm (hint n _ _ (by decide))
    | float x => cases b <;> exact absurd h.symm (hfloat x _ _ (by decide))
    | _ => cases hw
  | int n =>
    cases w with
    | null => exact absurd h (hint n _ _ (by decide))
    | bool b => cases b <;> exact absurd h (hint n _ _ (by decide))
    | int m => exact congrArg Json.int (intText_injective h)
    | float x => exact absurd h.symm (ft.ne_int x n)
    | _ => cases hw
  | float x =>
    cases w with
    | null => exact absurd h (hfloat x _ _ (by decide))
    | bool b => cases b <;> exact absurd h (hfloat x _ _ (by decide))
    | int n => exact absurd h (ft.ne_int x n)
    | float y => exact congrArg Json.float (ft.injective h)
    | _ => cases hw
  | _ => cases hv

lemma render_token_unique {v w : Json} {r s : List Char} (hv : opener v = none)
    (hr : Delimited r) (hs : Delimited s) (h : render ft v ++ r = render ft w ++ s) :
    v = w ∧ r = s := by
  have hw : opener w = none := (opener_eq h).symm.trans hv
  obtain ⟨htext, hrs⟩ := span_unique (token_chars hv) (token_chars hw) hr hs h
  exact ⟨token_injective hv hw htext, hrs⟩

lemma delimited_items (vs : List Json) (r : List Char) :
    Delimited (renderItems ft vs ++ ']' :: r) := by
  cases vs with
  | nil => exact delimited_cons (by decide)
  | cons v vs => exact delimited_cons (by decide)

lemma delimited_fields (d : Dict Json) (r : List Char) :
    Delimited (renderFields ft d ++ '\x7d' :: r) := by
  cases d with
  | nil => exact delimited_cons (by decide)
  | cons kv d => exact delimited_cons (by decide)

lemma renderItems_tail {vs ws : List Json} {r s : List Char}
    (hrest : renderItems ft vs ++ ']' :: r = renderItems ft ws ++ ']' :: s → vs = ws ∧ r = s)
    (h : (renderItems ft vs).tail ++ ']' :: r = (renderItems ft ws).tail ++ ']' :: s) :
    vs = ws ∧ r = s := by
  cases vs with
  | nil =>
    cases ws with
    | nil => exact hrest h
    | cons w ws =>
      obtain ⟨c, cs, hc, hdelim, -⟩ := render_start ft w
      simp [renderItems, hc] at h hdelim
      simp [← h.1] at hdelim
  | cons v vs =>
    cases ws with
    | nil =>
      obtain ⟨c, cs, hc, hdelim, -⟩ := render_start ft v
      simp [renderItems, hc] at h hdelim
      simp [h.1] at hdelim
    | cons w ws => exact hrest (congrArg (List.cons ',') h)

lemma renderFields_tail {d e : Dict Json} {r s : List Char}
    (hrest : renderFields ft d ++ '\x7d' :: r = renderFields ft e ++ '\x7d' :: s → d = e ∧ r = s)
    (h : (renderFields ft d).tail ++ '\x7d' :: r = (renderFields ft e).tail ++ '\x7d' :: s) :
    d = e ∧ r = s := by
  cases d with
  | nil =>
    cases e with
    | nil => exact hrest h
    | cons kv e => simp [renderFields, quote] at h
  | cons kv d =>
    cases e with
    | nil => simp [renderFields, quote] at h
    | cons kv' e => exact hrest (congrArg (List.cons ',') h)

mutual

theorem render_unique : ∀ (v w : Json) {r s : List Char}, Delimited r → Delimited s →
    render ft v ++ r = render ft w ++ s → v = w ∧ r = s
  | .null,       _, _, _, hr, hs, h => render_token_unique rfl hr hs h
  | .bool _,     _, _, _, hr, hs, h => render_token_unique rfl hr hs h
  | .int _,      _, _, _, hr, hs, h => render_token_unique rfl hr hs h
  | .float _,    _, _, _, hr, hs, h => render_token_unique rfl hr hs h
  | .str a,      w, r, s, hr, hs, h => by
    have hopener := opener_eq h
    cases w with
    | str b =>
      obtain ⟨rfl, hrs⟩ := quote_unique h
      exact ⟨rfl, hrs⟩
    | _ => simp [opener] at hopener
  | .arr items,  w, r, s, hr, hs, h => by
    have hopener := opener_eq h
    cases w with
    | arr items' =>
      simp only [render, List.cons_append, List.append_assoc, List.cons.injEq, true_and,
        List.nil_append] at h
      obtain ⟨rfl, hrs⟩ := renderItems_tail (renderItems_unique items items') h
      exact ⟨rfl, hrs⟩
    | _ => simp [opener] at hopener
  | .obj fields, w, r, s, hr, hs, h => by
    have hopener := opener_eq h
    cases w with
    | obj fields' =>
      simp only [render, List.cons_append, List.append_assoc, List.cons.injEq, true_and,
        List.nil_append] at h
      obtain ⟨rfl, hrs⟩ := renderFields_tail (renderFields_unique fields fields') h
      exact ⟨rfl, hrs⟩
    | _ => simp [opener] at hopener

theorem renderItems_unique : ∀ (vs ws : List Json) {r s : List Char},
    renderItems ft vs ++ ']' :: r = renderItems ft ws ++ ']' :: s → vs = ws ∧ r = s
  | [],      [],      r, s, h => ⟨rfl, (List.cons.inj h).2⟩
  | [],      w :: ws, r, s, h => by simp [renderItems] at h
  | v :: vs, [],      r, s, h => by simp [renderItems] at h
  | v :: vs, w :: ws, r, s, h => by
    simp only [renderItems, List.cons_append, List.append_assoc, List.cons.injEq, true_and] at h
    obtain ⟨rfl, hrest⟩ := render_unique v w (delimited_items vs r) (delimited_items ws s) h
    obtain ⟨rfl, hrs⟩ := renderItems_unique vs ws hrest
    exact ⟨rfl, hrs⟩

theorem renderFields_unique : ∀ (d e : Dict Json) {r s : List Char},
    renderFields ft d ++ '\x7d' :: r = renderFields ft e ++ '\x7d' :: s → d = e ∧ r = s
  | [],          [],          r, s, h => ⟨rfl, (List.cons.inj h).2⟩
  | [],          (k, w) :: e, r, s, h => by simp [renderFields] at h
  | (k, v) :: d, [],          r, s, h => by simp [renderFields] at h
  | (k, v) :: d, (l, w) :: e, r, s, h => by
    simp only [renderFields, List.cons_append, List.append_assoc, List.cons.injEq, true_and] at h
    obtain ⟨rfl, hvalue⟩ := quote_unique h
    rw [List.cons.injEq] at hvalue
    obtain ⟨rfl, hrest⟩ :=
      render_unique v w (delimited_fields d r) (delimited_fields e s) hvalue.2
    obtain ⟨rfl, hrs⟩ := renderFields_unique d e hrest
    exact ⟨rfl, hrs⟩

end

lemma render_injective : Function.Injective (render ft) := by
  intro v w h
  exact (render_unique v w delimited_nil delimited_nil (by rw [h])).1

/-- Documents are written alike exactly when they are equal up to the order of their keys. -/
theorem dumps_eq_iff {v w : Json} : dumps ft v = dumps ft w ↔ Same v w := by
  rw [dumps, dumps, String.ofList_inj, render_injective.eq_iff, Same]

end Render

end Python.Json
