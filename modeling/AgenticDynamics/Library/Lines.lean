import AgenticDynamics.Library.Python

/-!
# Texts read line by line

What a reader of loosely formatted text does with it: it cuts the text into lines, trims characters
off both ends of a line, and searches for dates. A text comes through a trimming unchanged exactly
if it neither begins nor ends with a character that is trimmed.
-/

namespace Python

/-! ### Trimming -/

section Trim

variable {α : Type} {p q : α → Bool} {l : List α}

/-- Drop what satisfies `p` at both ends. -/
def trim (p : α → Bool) (l : List α) : List α := (l.dropWhile p).rdropWhile p

/-- No end satisfies `p`. -/
def Bare (p : α → Bool) (l : List α) : Prop :=
  (∀ a ∈ l.head?, p a = false) ∧ ∀ a ∈ l.getLast?, p a = false

instance : Decidable (Bare p l) :=
  inferInstanceAs (Decidable ((∀ a ∈ l.head?, p a = false) ∧ ∀ a ∈ l.getLast?, p a = false))

lemma trim_sublist : (trim p l).Sublist l :=
  (List.rdropWhile_prefix p _).sublist.trans (List.dropWhile_sublist _)

lemma length_trim_le : (trim p l).length ≤ l.length := trim_sublist.length_le

lemma trim_eq_of_length (h : l.length ≤ (trim p l).length) : trim p l = l :=
  trim_sublist.eq_of_length_le h

lemma dropWhile_eq_self (h : ∀ a ∈ l.head?, p a = false) : l.dropWhile p = l := by
  cases l with
  | nil => rfl
  | cons a l => rw [List.dropWhile_cons, h a rfl]; rfl

lemma trim_eq_self_iff : trim p l = l ↔ Bare p l := by
  constructor
  · intro h
    have hleft : l.dropWhile p = l := by
      refine (List.dropWhile_sublist p).eq_of_length_le ?_
      calc l.length = (trim p l).length := by rw [h]
        _ ≤ (l.dropWhile p).length := (List.rdropWhile_prefix p _).length_le
    have hright : l.rdropWhile p = l := by rwa [trim, hleft] at h
    constructor
    · rw [← hleft]
      intro a ha
      cases hl : l.dropWhile p with
      | nil => rw [hl] at ha; cases ha
      | cons b rest =>
        rw [hl] at ha
        cases ha
        have hnot := List.dropWhile_get_zero_not p l (by rw [hl]; simp)
        simpa [hl] using hnot
    · intro a ha
      obtain ⟨init, rfl⟩ := List.getLast?_eq_some_iff.mp ha
      by_contra hp
      rw [List.rdropWhile_concat_pos p _ _ (by simpa using hp)] at hright
      have hlength := (List.rdropWhile_prefix p init).length_le
      rw [hright] at hlength
      simp at hlength
  · rintro ⟨hhead, hlast⟩
    rw [trim, dropWhile_eq_self hhead]
    rcases List.eq_nil_or_concat l with rfl | ⟨init, a, rfl⟩
    · rfl
    · rw [List.concat_eq_append] at hlast ⊢
      refine List.rdropWhile_concat_neg p _ _ ?_
      rw [hlast a (by simp)]
      simp

lemma trim_trim_eq_self_iff : trim p (trim q (trim p l)) = l ↔ Bare p l ∧ Bare q l := by
  constructor
  · intro h
    have h₁ : trim p l = l := trim_eq_of_length (by
      calc l.length = (trim p (trim q (trim p l))).length := by rw [h]
        _ ≤ (trim p l).length := length_trim_le.trans length_trim_le)
    rw [h₁] at h
    have h₂ : trim q l = l := trim_eq_of_length (by
      calc l.length = (trim p (trim q l)).length := by rw [h]
        _ ≤ (trim q l).length := length_trim_le)
    exact ⟨trim_eq_self_iff.mp h₁, trim_eq_self_iff.mp h₂⟩
  · rintro ⟨hp, hq⟩
    rw [trim_eq_self_iff.mpr hp, trim_eq_self_iff.mpr hq, trim_eq_self_iff.mpr hp]

lemma rdropWhile_append_cons {l' : List α} {a : α} (ha : p a = false) :
    (l ++ a :: l').rdropWhile p = l ++ a :: l'.rdropWhile p := by
  induction l' using List.reverseRecOn with
  | nil =>
    rw [List.rdropWhile_nil]
    exact List.rdropWhile_concat_neg p _ _ (by simp [ha])
  | append_singleton init b ih =>
    by_cases hb : p b = true
    · rw [List.rdropWhile_concat_pos p _ _ hb, ← ih, ← List.cons_append, ← List.append_assoc,
        List.rdropWhile_concat_pos p _ _ hb]
    · rw [List.rdropWhile_concat_neg p _ _ hb, ← List.cons_append, ← List.append_assoc,
        List.rdropWhile_concat_neg p _ _ hb]

end Trim

/-- `text.strip(chars)`. -/
def stripChars (chars : List Char) (text : String) : String :=
  String.ofList (trim (· ∈ chars) text.toList)

/-- `text.lstrip(chars)`. -/
def lstripChars (chars : List Char) (text : String) : String :=
  String.ofList (text.toList.dropWhile (· ∈ chars))

lemma strip_eq_trim (text : String) : strip text = String.ofList (trim isSpace text.toList) := rfl

lemma toList_strip (text : String) : (strip text).toList = trim isSpace text.toList := by
  rw [strip_eq_trim, String.toList_ofList]

lemma toList_stripChars (chars : List Char) (text : String) :
    (stripChars chars text).toList = trim (· ∈ chars) text.toList := String.toList_ofList

lemma startsWith_self (text : String) : startsWith text text = true :=
  List.isPrefixOf_iff_prefix.mpr (List.prefix_refl _)

lemma startsWith_append (head rest : String) : startsWith (head ++ rest) head = true :=
  List.isPrefixOf_iff_prefix.mpr ⟨rest.toList, String.toList_append.symm⟩

/-! ### Lines -/

def OneLine (text : String) : Prop := ∀ c ∈ text.toList, isLineBreak c = false

instance (text : String) : Decidable (OneLine text) :=
  List.decidableBAll (fun c => isLineBreak c = false) text.toList

lemma splitlinesFrom_append {l : List Char} (h : ∀ c ∈ l, isLineBreak c = false)
    (rest line : List Char) :
    splitlinesFrom (l ++ rest) line = splitlinesFrom rest (l.reverse ++ line) := by
  induction l generalizing line with
  | nil => rfl
  | cons c l ih =>
    have hc := h c (List.mem_cons_self)
    have hcr : c ≠ '\r' := by
      rintro rfl
      exact absurd hc (by decide)
    rw [List.cons_append, splitlinesFrom.eq_3 _ _ _ (by intro _ h _; exact hcr h), if_neg (by simp [hc]),
      ih (fun c' hc' => h c' (List.mem_cons_of_mem _ hc'))]
    simp

lemma splitlines_cons {line : String} (h : OneLine line) (rest : String) :
    splitlines (line ++ ("\n" ++ rest)) = line :: splitlines rest := by
  have hbreak : isLineBreak '\n' = true := by decide
  rw [splitlines, String.toList_append, String.toList_append, splitlinesFrom_append h]
  show splitlinesFrom ('\n' :: rest.toList) _ = _
  rw [splitlinesFrom.eq_3 _ _ _ (by intro _ h; exact absurd h (by decide)), if_pos hbreak]
  simp [splitlines, String.ofList_toList]

lemma oneLine_of_mem_splitlines {text line : String} (h : line ∈ splitlines text) :
    OneLine line := by
  have hfrom : ∀ (l current : List Char), (∀ c ∈ current, isLineBreak c = false) →
      ∀ line ∈ splitlinesFrom l current, OneLine line := by
    intro l current
    fun_induction splitlinesFrom l current with
    | case1 current hempty => simp
    | case2 current hempty =>
      intro hcurrent line hline c hc
      rw [List.mem_singleton.mp hline, String.toList_ofList, List.mem_reverse] at hc
      exact hcurrent c hc
    | case3 rest current ih =>
      intro hcurrent line hline
      rcases List.mem_cons.mp hline with rfl | hline
      · intro c hc
        rw [String.toList_ofList, List.mem_reverse] at hc
        exact hcurrent c hc
      · exact ih (by simp) line hline
    | case4 c rest current _ hbreak ih =>
      intro hcurrent line hline
      rcases List.mem_cons.mp hline with rfl | hline
      · intro c' hc'
        rw [String.toList_ofList, List.mem_reverse] at hc'
        exact hcurrent c' hc'
      · exact ih (by simp) line hline
    | case5 c rest current _ hbreak ih =>
      intro hcurrent line hline
      refine ih (fun c' hc' => ?_) line hline
      rcases List.mem_cons.mp hc' with rfl | hc'
      · simpa using hbreak
      · exact hcurrent c' hc'
  exact hfrom text.toList [] (by simp) line h

/-! ### Dates -/

/-- The first code point of each run of ten decimal digits of Unicode. -/
def decimalZeros : List ℕ :=
  [0x30, 0x660, 0x6F0, 0x7C0, 0x966, 0x9E6, 0xA66, 0xAE6, 0xB66, 0xBE6, 0xC66, 0xCE6, 0xD66, 0xDE6,
    0xE50, 0xED0, 0xF20, 0x1040, 0x1090, 0x17E0, 0x1810, 0x1946, 0x19D0, 0x1A80, 0x1A90, 0x1B50,
    0x1BB0, 0x1C40, 0x1C50, 0xA620, 0xA8D0, 0xA900, 0xA9D0, 0xA9F0, 0xAA50, 0xABF0, 0xFF10, 0x104A0,
    0x10D30, 0x11066, 0x110F0, 0x11136, 0x111D0, 0x112F0, 0x11450, 0x114D0, 0x11650, 0x116C0,
    0x11730, 0x118E0, 0x11950, 0x11C50, 0x11D50, 0x11DA0, 0x16A60, 0x16AC0, 0x16B50, 0x1D7CE,
    0x1D7D8, 0x1D7E2, 0x1D7EC, 0x1D7F6, 0x1E140, 0x1E2F0, 0x1E950, 0x1FBF0]

/-- What `\d` matches in a pattern over text. -/
def isDecimal (c : Char) : Bool := decimalZeros.any fun n => n ≤ c.toNat ∧ c.toNat < n + 10

/-- The kinds of the ten characters of `\d\d\d\d-\d\d-\d\d`: a digit, or a hyphen. -/
def datePattern : List Bool := [true, true, true, true, false, true, true, false, true, true]

/-- `l` begins with a date. -/
def startsWithDate (l : List Char) : Bool :=
  10 ≤ l.length ∧ (l.zip datePattern).all fun (c, digit) => if digit then isDecimal c else c = '-'

/-- `re.search` of the first date. -/
def searchDate : List Char → Option (List Char)
  | []     => none
  | c :: l => if startsWithDate (c :: l) then some ((c :: l).take 10) else searchDate l

def embeddedDate (text : String) : Option String := (searchDate text.toList).map String.ofList

/-- `text.replace(old, "")` from the left, with a number of characters still to be passed over. -/
def removeFrom (old : List Char) : ℕ → List Char → List Char
  | _, []          => []
  | n + 1, _ :: l  => removeFrom old n l
  | 0, c :: l      =>
    if old.isPrefixOf (c :: l) then removeFrom old (old.length - 1) l else c :: removeFrom old 0 l

/-- `text.replace(old, "")` for an `old` that is not empty. -/
def remove (old text : String) : String := String.ofList (removeFrom old.toList 0 text.toList)

example : embeddedDate "dana 2026-09-11!" = some "2026-09-11" := by decide +kernel

example : remove "2026-09-11" "dana 2026-09-11!" = "dana !" := by decide +kernel

lemma searchDate_part {l d : List Char} (h : searchDate l = some d) : d <:+: l ∧ d ≠ [] := by
  induction l with
  | nil => cases h
  | cons c l ih =>
    rw [searchDate] at h
    split_ifs at h
    · cases h
      exact ⟨(List.take_prefix 10 _).isInfix, by simp⟩
    · obtain ⟨hpart, hne⟩ := ih h
      exact ⟨hpart.trans (List.suffix_cons c l).isInfix, hne⟩

lemma removeFrom_sublist (old : List Char) (n : ℕ) (l : List Char) :
    (removeFrom old n l).Sublist l := by
  fun_induction removeFrom old n l with
  | case1 => exact List.Sublist.refl _
  | case2 n c l ih => exact ih.cons c
  | case3 c l h ih => exact ih.cons c
  | case4 c l h ih => exact ih.cons_cons c

lemma length_removeFrom_lt {old l : List Char} (hne : old ≠ []) (h : old <:+: l) :
    (removeFrom old 0 l).length < l.length := by
  induction l with
  | nil => exact absurd (List.infix_nil.mp h) hne
  | cons c l ih =>
    rw [removeFrom]
    split_ifs with hhead
    · have hle := (removeFrom_sublist old (old.length - 1) l).length_le
      rw [List.length_cons]
      omega
    · rcases List.infix_cons_iff.mp h with hp | hrest
      · exact absurd (List.isPrefixOf_iff_prefix.mpr hp) hhead
      · rw [List.length_cons, List.length_cons]
        exact Nat.succ_lt_succ (ih hrest)

end Python
