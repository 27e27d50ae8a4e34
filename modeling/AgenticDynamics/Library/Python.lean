import Mathlib.Tactic
import Mathlib.Data.Rat.Floor
import Mathlib.Data.List.TakeWhile
import Mathlib.Data.List.DropRight

/-!
# Python values

The built-in values and operations of Python that the modelled code relies on: floats, strings,
JSON documents, dictionaries that remember insertion order, and UTC instants.

Arithmetic on finite floats is exact here. What is kept of the floating-point format is its
range: an operation whose exact result lies beyond it overflows as Python's does.
-/

namespace Python

/-! ### Exceptions -/

section Exceptions

variable {ε ε' α β : Type} {x : Except ε α}

lemma bind_eq_ok {f : α → Except ε β} {b : β} :
    (x >>= f) = .ok b ↔ ∃ a, x = .ok a ∧ f a = .ok b := by
  cases x with
  | error e => simp [Bind.bind, Except.bind]
  | ok a => simp [Bind.bind, Except.bind]

@[simp] lemma mapError_eq_ok {f : ε → ε'} {a : α} : x.mapError f = .ok a ↔ x = .ok a := by
  cases x <;> simp [Except.mapError]

lemma ok_of_toOption_map {f : α → β} {b : β} (h : x.toOption.map f = some b) :
    ∃ a, x = .ok a ∧ f a = b := by
  cases x with
  | error e => simp [Except.toOption] at h
  | ok a => exact ⟨a, rfl, by simpa [Except.toOption] using h⟩

lemma mapM_eq_ok {f : α → Except ε β} {g : α → β} {l : List α} {l' : List β}
    (hg : ∀ a b, f a = .ok b → g a = b) :
    l.mapM f = .ok l' ↔ (∀ a ∈ l, f a = .ok (g a)) ∧ l' = l.map g := by
  induction l generalizing l' with
  | nil => simp [pure, Except.pure, eq_comm]
  | cons a l ih =>
    rw [List.mapM_cons]
    simp only [bind_eq_ok, pure, Except.pure, Except.ok.injEq, List.forall_mem_cons, List.map_cons]
    constructor
    · rintro ⟨b, hb, bs, hbs, rfl⟩
      obtain ⟨hall, rfl⟩ := ih.mp hbs
      exact ⟨⟨by rw [hb, hg a b hb], hall⟩, by rw [hg a b hb]⟩
    · rintro ⟨⟨hb, hall⟩, rfl⟩
      exact ⟨g a, hb, l.map g, ih.mpr ⟨hall, rfl⟩, rfl⟩

lemma mapM_isOk {f : α → Except ε β} {l : List α} :
    (∃ l', l.mapM f = .ok l') ↔ ∀ a ∈ l, ∃ b, f a = .ok b := by
  induction l with
  | nil => simp [pure, Except.pure]
  | cons a l ih =>
    rw [List.forall_mem_cons, ← ih, List.mapM_cons]
    simp only [bind_eq_ok, pure, Except.pure, Except.ok.injEq]
    constructor
    · rintro ⟨_, b, hb, bs, hbs, -⟩
      exact ⟨⟨b, hb⟩, bs, hbs⟩
    · rintro ⟨⟨b, hb⟩, bs, hbs⟩
      exact ⟨_, b, hb, bs, hbs, rfl⟩

lemma forall₂_of_mapM {f : α → Except ε β} {l : List α} {l' : List β}
    (h : l.mapM f = .ok l') : List.Forall₂ (fun a b => f a = .ok b) l l' := by
  induction l generalizing l' with
  | nil =>
    simp only [List.mapM_nil, pure, Except.pure, Except.ok.injEq] at h
    rw [← h]
    exact .nil
  | cons a l ih =>
    simp only [List.mapM_cons, bind_eq_ok, pure, Except.pure, Except.ok.injEq] at h
    obtain ⟨b, hb, bs, hbs, rfl⟩ := h
    exact .cons hb (ih hbs)

lemma mapM_rel {β' : Type} {R : β → β' → Prop} {f : α → Except ε β} {g : α → Except ε β'}
    {l : List α} {bs : List β} (hstep : ∀ a ∈ l, ∀ b, f a = .ok b → ∃ b', g a = .ok b' ∧ R b b')
    (h : l.mapM f = .ok bs) : ∃ bs', l.mapM g = .ok bs' ∧ List.Forall₂ R bs bs' := by
  induction l generalizing bs with
  | nil =>
    simp only [List.mapM_nil, pure, Except.pure, Except.ok.injEq] at h
    exact ⟨[], rfl, by simp [← h]⟩
  | cons a l ih =>
    simp only [List.mapM_cons, bind_eq_ok, pure, Except.pure, Except.ok.injEq] at h
    obtain ⟨b, hb, bs, hbs, rfl⟩ := h
    obtain ⟨b', hb', hrel⟩ := hstep a (by simp) b hb
    obtain ⟨bs', hbs', hrels⟩ := ih (fun a ha => hstep a (by simp [ha])) hbs
    refine ⟨b' :: bs', ?_, .cons hrel hrels⟩
    simp only [List.mapM_cons, hb', hbs', bind, Except.bind, pure, Except.pure]

lemma mapM_perm {f : α → Except ε β} {l l' : List α} {bs : List β} (hperm : l.Perm l')
    (h : l.mapM f = .ok bs) : ∃ bs', l'.mapM f = .ok bs' ∧ bs.Perm bs' := by
  induction hperm generalizing bs with
  | nil => exact ⟨bs, h, .refl bs⟩
  | cons a _ ih =>
    simp only [List.mapM_cons, bind_eq_ok, pure, Except.pure, Except.ok.injEq] at h
    obtain ⟨b, hb, bs, hbs, rfl⟩ := h
    obtain ⟨bs', hbs', hperm⟩ := ih hbs
    refine ⟨b :: bs', ?_, hperm.cons b⟩
    simp only [List.mapM_cons, hb, hbs', bind, Except.bind, pure, Except.pure]
  | swap a a' l =>
    simp only [List.mapM_cons, bind_eq_ok, pure, Except.pure, Except.ok.injEq] at h
    obtain ⟨b', hb', _, ⟨b, hb, bs, hbs, rfl⟩, rfl⟩ := h
    refine ⟨b :: b' :: bs, ?_, .swap b b' bs⟩
    simp only [List.mapM_cons, hb, hb', hbs, bind, Except.bind, pure, Except.pure]
  | trans _ _ ih ih' =>
    obtain ⟨bs', hbs', hperm⟩ := ih h
    obtain ⟨bs'', hbs'', hperm'⟩ := ih' hbs'
    exact ⟨bs'', hbs'', hperm.trans hperm'⟩

lemma forall₂_mem {α β : Type} {R : α → β → Prop} {l : List α} {l' : List β}
    (h : List.Forall₂ R l l') : (∀ a ∈ l, ∃ b ∈ l', R a b) ∧ ∀ b ∈ l', ∃ a ∈ l, R a b := by
  induction h with
  | nil => simp
  | @cons a b l l' hab _ ih =>
    constructor
    · intro x hx
      rcases List.mem_cons.mp hx with rfl | hx
      · exact ⟨b, List.mem_cons_self, hab⟩
      · obtain ⟨y, hy, hxy⟩ := ih.1 x hx
        exact ⟨y, List.mem_cons_of_mem b hy, hxy⟩
    · intro y hy
      rcases List.mem_cons.mp hy with rfl | hy
      · exact ⟨a, List.mem_cons_self, hab⟩
      · obtain ⟨x, hx, hxy⟩ := ih.2 y hy
        exact ⟨x, List.mem_cons_of_mem a hx, hxy⟩

lemma mapM_of_forall₂ {f : α → Except ε β} {l : List α} {l' : List β}
    (h : List.Forall₂ (fun a b => f a = .ok b) l l') : l.mapM f = .ok l' := by
  induction h with
  | nil => rfl
  | cons hab _ ih =>
    rw [List.mapM_cons, hab, ih]
    rfl

lemma mapM_of_error {f : α → Except ε β} {pre post : List α} {a : α} {e : ε}
    (hpre : ∀ b ∈ pre, ∃ c, f b = .ok c) (ha : f a = .error e) :
    (pre ++ a :: post).mapM f = .error e := by
  induction pre with
  | nil =>
    rw [List.nil_append, List.mapM_cons, ha]
    rfl
  | cons b pre ih =>
    obtain ⟨⟨c, hc⟩, hpre⟩ := List.forall_mem_cons.mp hpre
    rw [List.cons_append, List.mapM_cons, hc, ih hpre]
    rfl

lemma mapM_error {f : α → Except ε β} {l : List α} {e : ε}
    (h : l.mapM f = .error e) :
    ∃ pre a post, l = pre ++ a :: post ∧ (∀ b ∈ pre, ∃ c, f b = .ok c) ∧ f a = .error e := by
  induction l with
  | nil => cases h
  | cons a l ih =>
    rw [List.mapM_cons] at h
    cases ha : f a with
    | error e' =>
      rw [ha] at h
      cases h
      exact ⟨[], a, l, rfl, by simp, ha⟩
    | ok c =>
      cases hl : l.mapM f with
      | ok rest =>
        rw [ha, hl] at h
        cases h
      | error e' =>
        rw [ha, hl] at h
        cases h
        obtain ⟨pre, b, post, rfl, hpre, hb⟩ := ih hl
        exact ⟨a :: pre, b, post, rfl, List.forall_mem_cons.mpr ⟨⟨c, ha⟩, hpre⟩, hb⟩

lemma foldlM_eq_ok {f : β → α → Except ε β} {g : β → α → β} {p : α → Prop}
    (hf : ∀ b a b', f b a = .ok b' ↔ p a ∧ b' = g b a) {l : List α} {b b' : β} :
    l.foldlM f b = .ok b' ↔ (∀ a ∈ l, p a) ∧ b' = l.foldl g b := by
  induction l generalizing b with
  | nil => simp [pure, Except.pure, eq_comm]
  | cons a l ih =>
    rw [List.foldlM_cons, bind_eq_ok, List.forall_mem_cons, List.foldl_cons]
    constructor
    · rintro ⟨c, hc, hrest⟩
      obtain ⟨ha, rfl⟩ := (hf b a c).mp hc
      obtain ⟨hl, rfl⟩ := ih.mp hrest
      exact ⟨⟨ha, hl⟩, rfl⟩
    · rintro ⟨⟨ha, hl⟩, rfl⟩
      exact ⟨g b a, (hf b a _).mpr ⟨ha, rfl⟩, ih.mpr ⟨hl, rfl⟩⟩

end Exceptions

/-! ### Floats -/

inductive PyFloat
  | finite (q : ℚ)
  | inf (negative : Bool)
  | nan
  deriving DecidableEq

/-- The least magnitude that rounds beyond the largest double. -/
def floatLimit : ℚ := 2 ^ 1024 - 2 ^ 970

def floatMax : ℚ := 2 ^ 1024 - 2 ^ 971

lemma floatMax_add_lt {e : ℚ} (h : e < 1) : floatMax + e < floatLimit := by
  have hstep : (2 : ℚ) ^ 971 = 2 ^ 970 * 2 := pow_succ 2 970
  have hunit : (1 : ℚ) < 2 ^ 970 := one_lt_pow₀ (by norm_num) (by norm_num)
  rw [floatMax, floatLimit, hstep]
  generalize (2 : ℚ) ^ 970 = ulp at hunit ⊢
  generalize (2 : ℚ) ^ 1024 = top
  linarith

namespace PyFloat

/-- The float nearest to an exact result; beyond the range it is infinite. -/
def ofRat (q : ℚ) : PyFloat := if floatLimit ≤ |q| then inf (q < 0) else finite q

/-- `a + b`. -/
def add : PyFloat → PyFloat → PyFloat
  | finite a, finite b => ofRat (a + b)
  | finite _, inf neg  => inf neg
  | inf neg, finite _  => inf neg
  | inf neg, inf neg'  => if neg = neg' then inf neg else nan
  | _, _               => nan

/-- `sum(xs)`. -/
def sum (xs : List PyFloat) : PyFloat := xs.foldl add (finite 0)

/-- `a * b`. -/
def mul : PyFloat → PyFloat → PyFloat
  | finite a, finite b => ofRat (a * b)
  | finite a, inf neg  => if a = 0 then nan else inf (neg ^^ decide (a < 0))
  | inf neg, finite b  => if b = 0 then nan else inf (neg ^^ decide (b < 0))
  | inf neg, inf neg'  => inf (neg ^^ neg')
  | _, _               => nan

/-- `x ** n`; none stands for the `OverflowError` of a finite base. -/
def pow (x : PyFloat) (n : ℕ) : Option PyFloat :=
  if n = 0 then some (finite 1)
  else match x with
    | finite q => if floatLimit ≤ |q ^ n| then none else some (finite (q ^ n))
    | inf neg  => some (inf (neg && n % 2 == 1))
    | nan      => some nan

/-- `a < b`, which is false on NaN. -/
def lt : PyFloat → PyFloat → Bool
  | finite a, finite b     => a < b
  | finite _, inf neg      => !neg
  | inf neg, finite _      => neg
  | inf neg, inf neg'      => neg && !neg'
  | _, _                   => false

/-- `a <= b`, which is false on NaN. -/
def le (a b : PyFloat) : Bool := lt a b || (a = b && a ≠ nan)

/-- `min(a, b)`: the second argument only when it is smaller. -/
def min (a b : PyFloat) : PyFloat := if lt b a then b else a

def isFinite : PyFloat → Bool
  | finite _ => true
  | _        => false

def toRat : PyFloat → ℚ
  | finite q => q
  | _        => 0

lemma add_inf_left (x : PyFloat) (hx : x.isFinite) : add (inf false) x = inf false := by
  cases x with
  | finite q => rfl
  | inf neg => cases hx
  | nan => cases hx

lemma foldl_add (xs : List PyFloat) (hx : ∀ x ∈ xs, x.isFinite ∧ 0 ≤ x.toRat) {a : ℚ}
    (ha : 0 ≤ a) : xs.foldl add (finite a) = finite (a + (xs.map toRat).sum) ∨
      xs.foldl add (finite a) = inf false := by
  have hinf : ∀ ys : List PyFloat, (∀ y ∈ ys, y.isFinite) →
      ys.foldl add (inf false) = inf false := by
    intro ys hys
    induction ys with
    | nil => rfl
    | cons y ys ih =>
      rw [List.foldl_cons, add_inf_left y (hys y (List.mem_cons_self ..))]
      exact ih fun z hz => hys z (List.mem_cons_of_mem _ hz)
  induction xs generalizing a with
  | nil => simp
  | cons x xs ih =>
    obtain ⟨hfin, hnonneg⟩ := hx x (List.mem_cons_self ..)
    cases x with
    | inf neg => cases hfin
    | nan => cases hfin
    | finite q =>
      change 0 ≤ q at hnonneg
      have hxs : ∀ y ∈ xs, y.isFinite ∧ 0 ≤ y.toRat := fun y hy => hx y (List.mem_cons_of_mem _ hy)
      have hadd : add (finite a) (finite q) = finite (a + q) ∨
          add (finite a) (finite q) = inf false := by
        simp only [add, ofRat]
        split
        · refine .inr ?_
          have hneg : ¬ a + q < 0 := not_lt.mpr (add_nonneg ha hnonneg)
          simp only [hneg, decide_false]
        · exact .inl rfl
      rw [List.foldl_cons]
      rcases hadd with hadd | hadd
      · rw [hadd]
        have hrest := ih hxs (add_nonneg ha hnonneg)
        simpa only [List.map_cons, List.sum_cons, toRat, ← add_assoc] using hrest
      · exact .inr (by rw [hadd]; exact hinf xs fun y hy => (hxs y hy).1)

lemma sum_add_le {xs : List PyFloat} (hx : ∀ x ∈ xs, x.isFinite ∧ 0 ≤ x.toRat) {a c : ℚ}
    (ha : 0 ≤ a) (hle : lt (finite c) (add (sum xs) (finite a)) = false) :
    (xs.map toRat).sum + a ≤ c := by
  have hsum : 0 ≤ (xs.map toRat).sum := by
    refine List.sum_nonneg ?_
    intro q hq
    obtain ⟨x, hx', rfl⟩ := List.mem_map.mp hq
    exact (hx x hx').2
  rcases foldl_add xs hx (le_refl 0) with h | h
  · simp only [sum, h, zero_add, add, ofRat] at hle
    split at hle
    · have hneg : ¬ (xs.map toRat).sum + a < 0 := not_lt.mpr (add_nonneg hsum ha)
      simp [lt, hneg] at hle
    · simpa [lt] using hle
  · simp [sum, h, add, lt] at hle

end PyFloat

/-- `float(n)`; none stands for the `OverflowError` of an integer out of range. -/
def floatOfInt (n : ℤ) : Option ℚ :=
  if floatLimit ≤ |(n : ℚ)| then none else some (max (-floatMax) (min floatMax n))

lemma floatOfInt_eq {n : ℤ} (h : |(n : ℚ)| ≤ floatMax) : floatOfInt n = some n := by
  have hlimit : ¬ floatLimit ≤ |(n : ℚ)| := by
    have := floatMax_add_lt (show (0 : ℚ) < 1 by norm_num)
    linarith
  obtain ⟨hlow, hhigh⟩ := abs_le.mp h
  simp [floatOfInt, hlimit, min_eq_right hhigh, max_eq_right hlow]

/-- `round` to an integer, ties to even. -/
def roundHalfEven (q : ℚ) : ℤ :=
  let below := ⌊q⌋
  if q - below < 1 / 2 then below
  else if 1 / 2 < q - below then below + 1
  else if below % 2 = 0 then below else below + 1

lemma abs_roundHalfEven_sub_le (q : ℚ) : |(roundHalfEven q : ℚ) - q| ≤ 1 / 2 := by
  have hlow := Int.floor_le q
  have hhigh := Int.lt_floor_add_one q
  rw [abs_le, roundHalfEven]
  split_ifs <;> push_cast <;> constructor <;> linarith

lemma roundHalfEven_intCast (k : ℤ) : roundHalfEven (k : ℚ) = k := by
  simp [roundHalfEven]

/-! ### Strings -/

/-- `str.isspace` on one character. -/
def isSpace (c : Char) : Bool :=
  let n := c.toNat
  (9 ≤ n && n ≤ 13) || (28 ≤ n && n ≤ 32) || n == 0x85 || n == 0xA0 || n == 0x1680 ||
    (0x2000 ≤ n && n ≤ 0x200A) || n == 0x2028 || n == 0x2029 || n == 0x202F || n == 0x205F ||
    n == 0x3000

def strip (s : String) : String :=
  String.ofList ((s.toList.dropWhile isSpace).reverse.dropWhile isSpace).reverse

lemma isSpace_of_strip {s : String} (h : strip s = "") : ∀ c ∈ s.toList, isSpace c = true := by
  have hlist := congrArg String.toList h
  simp only [strip, String.toList_ofList, String.toList_empty, List.reverse_eq_nil_iff,
    List.dropWhile_eq_nil_iff, List.mem_reverse] at hlist
  intro c hc
  rw [← List.takeWhile_append_dropWhile (p := isSpace) (l := s.toList), List.mem_append] at hc
  rcases hc with hc | hc
  · exact List.mem_takeWhile_imp hc
  · exact hlist c hc

@[simp] lemma strip_strip (s : String) : strip (strip s) = strip s := by
  have hkeep : ∀ l : List Char, (l.dropWhile isSpace).rdropWhile isSpace =
      (((l.dropWhile isSpace).rdropWhile isSpace).dropWhile isSpace).rdropWhile isSpace := by
    intro l
    have hhead : ((l.dropWhile isSpace).rdropWhile isSpace).dropWhile isSpace =
        (l.dropWhile isSpace).rdropWhile isSpace := by
      rw [List.dropWhile_eq_self_iff]
      intro hlength
      have hinit := List.rdropWhile_prefix (p := isSpace) (l := l.dropWhile isSpace)
      rw [hinit.getElem hlength]
      exact List.dropWhile_get_zero_not isSpace l (hlength.trans_le hinit.length_le)
    rw [hhead, List.rdropWhile_idempotent]
  simpa [strip, List.rdropWhile] using congrArg String.ofList (hkeep s.toList).symm

/-- The line boundaries of `str.splitlines`. -/
def isLineBreak (c : Char) : Bool :=
  let n := c.toNat
  (10 ≤ n && n ≤ 13) || (28 ≤ n && n ≤ 30) || n == 0x85 || n == 0x2028 || n == 0x2029

/-- The lines of a text, the current line being read in reverse. -/
def splitlinesFrom : List Char → List Char → List String
  | [], line => if line.isEmpty then [] else [String.ofList line.reverse]
  | '\r' :: '\n' :: rest, line => String.ofList line.reverse :: splitlinesFrom rest []
  | c :: rest, line =>
    if isLineBreak c then String.ofList line.reverse :: splitlinesFrom rest []
    else splitlinesFrom rest (c :: line)

def splitlines (s : String) : List String := splitlinesFrom s.toList []

example : splitlines "a\n\nb\r\n" = ["a", "", "b"] := by decide +kernel

/-- `text.split(sep)` on one character. -/
def split (sep : Char) (s : String) : List String := (s.toList.splitOn sep).map String.ofList

example : split '/' "org:r//job:c" = ["org:r", "", "job:c"] := by decide +kernel

/-- `text.split()`: the maximal runs without white space. -/
def words (s : String) : List String :=
  ((s.toList.splitOnP isSpace).filter fun w => !w.isEmpty).map String.ofList

/-- `text.partition(sep)`: what stands before the first separator, and after it. -/
def partition (sep : Char) (s : String) : String × String :=
  (String.ofList (s.toList.takeWhile (· ≠ sep)),
    String.ofList ((s.toList.dropWhile (· ≠ sep)).drop 1))

/-- `text.startswith(head)`. -/
def startsWith (s head : String) : Bool := head.toList.isPrefixOf s.toList

/-- `a or b` on strings. -/
def orElse (a : Option String) (b : String) : String :=
  match a with
  | some s => if s = "" then b else s
  | none   => b

/-! ### Instants -/

/-- Microseconds since the first instant a `datetime` can hold, in UTC. -/
abbrev Instant := ℕ

/-- The last instant a `datetime` can hold, `9999-12-31T23:59:59.999999`. -/
def maxInstant : Instant := 3652059 * 86400000000 - 1

/-- A number padded with zeros to a width. -/
def padded (width n : ℕ) : String :=
  "".pushn '0' (width - (Nat.repr n).length) ++ Nat.repr n

/-- Year, month and day of a count of days since `0001-01-01`. -/
def civil (days : ℕ) : ℕ × ℕ × ℕ :=
  let z := days + 306
  let era := z / 146097
  let doe := z % 146097
  let yoe := (doe - doe / 1460 + doe / 36524 - doe / 146096) / 365
  let doy := doe - (365 * yoe + yoe / 4 - yoe / 100)
  let mp := (5 * doy + 2) / 153
  let day := doy - (153 * mp + 2) / 5 + 1
  let month := if mp < 10 then mp + 3 else mp - 9
  (yoe + era * 400 + (if month ≤ 2 then 1 else 0), month, day)

/-- `isoformat()` of a UTC instant, with `Z` for the offset. -/
def isoZ (t : Instant) : String :=
  let (year, month, day) := civil (t / 86400000000)
  let second := t / 1000000 % 86400
  let fraction := if t % 1000000 = 0 then "" else "." ++ padded 6 (t % 1000000)
  padded 4 year ++ "-" ++ padded 2 month ++ "-" ++ padded 2 day ++ "T" ++
    padded 2 (second / 3600) ++ ":" ++ padded 2 (second / 60 % 60) ++ ":" ++
    padded 2 (second % 60) ++ fraction ++ "Z"

example : isoZ 63902822400250000 = "2026-01-01T00:00:00.250000Z" := by decide

/-- A `datetime`: the microseconds of its instant, or of its wall clock where it is naive. -/
structure DateTime where
  micros : ℤ
  aware : Bool := true
  deriving DecidableEq

/-- `(a - b)` in microseconds; none stands for the `TypeError` of mixing naive and aware. -/
def DateTime.sub (a b : DateTime) : Option ℤ :=
  if a.aware = b.aware then some (a.micros - b.micros) else none

/-! ### JSON documents -/

/-- A parsed JSON document; an object keeps its keys in the order they were first written. -/
inductive Json
  | null
  | bool (b : Bool)
  | int (n : ℤ)
  | float (x : PyFloat)
  | str (s : String)
  | arr (items : List Json)
  | obj (fields : List (String × Json))

namespace Json

/-- `bool(value)`. -/
def truthy : Json → Bool
  | null       => false
  | bool b     => b
  | int n      => n ≠ 0
  | float x    => x ≠ .finite 0
  | str s      => s ≠ ""
  | arr items  => !items.isEmpty
  | obj fields => !fields.isEmpty

/-- `type(value).__name__`. -/
def typeName : Json → String
  | null    => "NoneType"
  | bool _  => "bool"
  | int _   => "int"
  | float _ => "float"
  | str _   => "str"
  | arr _   => "list"
  | obj _   => "dict"

/-- `hash(value)` exists. -/
def hashable : Json → Bool
  | arr _ => false
  | obj _ => false
  | _     => true

end Json

/-- A dictionary with string keys, in insertion order. -/
abbrev Dict (α : Type) := List (String × α)

namespace Dict

variable {α : Type}

/-- `d.get(key)`. -/
def get? (key : String) (d : Dict α) : Option α := (d.find? fun kv => kv.1 = key).map Prod.snd

/-- `d[key] = value`: an existing key keeps its place. -/
def set (key : String) (value : α) (d : Dict α) : Dict α :=
  if (d.get? key).isSome then d.map fun kv => if kv.1 = key then (key, value) else kv
  else d ++ [(key, value)]

/-- `d.setdefault(key, value)`. -/
def setDefault (key : String) (value : α) (d : Dict α) : Dict α :=
  if (d.get? key).isSome then d else d ++ [(key, value)]

/-- `d.pop(key, None)`. -/
def erase (key : String) (d : Dict α) : Dict α := d.filter fun kv => kv.1 ≠ key

def eraseAll (keys : List String) (d : Dict α) : Dict α := d.filter fun kv => kv.1 ∉ keys

@[simp] lemma mem_eraseAll {keys : List String} {d : Dict α} {kv : String × α} :
    kv ∈ eraseAll keys d ↔ kv ∈ d ∧ kv.1 ∉ keys := by
  simp [eraseAll]

lemma get?_eq_none {key : String} {d : Dict α} :
    get? key d = none ↔ ∀ kv ∈ d, kv.1 ≠ key := by
  simp [get?]

lemma mem_of_get? {key : String} {d : Dict α} {v : α} (h : get? key d = some v) :
    (key, v) ∈ d := by
  simp only [get?, Option.map_eq_some_iff] at h
  obtain ⟨⟨k, v'⟩, hfind, rfl⟩ := h
  have hk := List.find?_some hfind
  simp only [decide_eq_true_eq] at hk
  subst hk
  exact List.mem_of_find?_eq_some hfind

lemma get?_of_mem {key : String} {d : Dict α} {v : α} (h : (key, v) ∈ d)
    (hall : ∀ kv ∈ d, kv.1 = key → kv.2 = v) : get? key d = some v := by
  cases hget : get? key d with
  | none => exact absurd rfl (get?_eq_none.mp hget _ h)
  | some v' => rw [← hall _ (mem_of_get? hget) rfl]

lemma set_of_new {key : String} {d : Dict α} (h : ∀ kv ∈ d, kv.1 ≠ key) (v : α) :
    set key v d = d ++ [(key, v)] := by
  simp [set, get?_eq_none.mpr h]

lemma mem_set {key : String} {value : α} {d : Dict α} {kv : String × α} :
    kv ∈ set key value d ↔ kv = (key, value) ∨ kv ∈ d ∧ kv.1 ≠ key := by
  rw [set]
  split_ifs with hkey
  · rw [List.mem_map]
    constructor
    · rintro ⟨kv', hkv', rfl⟩
      by_cases hsame : kv'.1 = key
      · exact .inl (if_pos hsame)
      · rw [if_neg hsame]
        exact .inr ⟨hkv', hsame⟩
    · rintro (rfl | ⟨hkv, hne⟩)
      · obtain ⟨old, hold⟩ := Option.isSome_iff_exists.mp hkey
        exact ⟨(key, old), mem_of_get? hold, if_pos rfl⟩
      · exact ⟨kv, hkv, if_neg hne⟩
  · rw [Option.not_isSome_iff_eq_none, get?_eq_none] at hkey
    rw [List.mem_append, List.mem_singleton, or_comm]
    exact or_congr_right ⟨fun hkv => ⟨hkv, hkey kv hkv⟩, And.left⟩

lemma nodup_eraseAll {keys : List String} {d : Dict α} (h : (d.map Prod.fst).Nodup) :
    ((eraseAll keys d).map Prod.fst).Nodup :=
  h.sublist (List.filter_sublist.map _)

lemma nodup_erase {key : String} {d : Dict α} (h : (d.map Prod.fst).Nodup) :
    ((erase key d).map Prod.fst).Nodup :=
  h.sublist (List.filter_sublist.map _)

lemma nodup_set {key : String} {d : Dict α} {v : α} (h : (d.map Prod.fst).Nodup) :
    ((set key v d).map Prod.fst).Nodup := by
  simp only [set]
  split
  · have hkeys : (d.map fun kv => if kv.1 = key then (key, v) else kv).map Prod.fst =
        d.map Prod.fst := by
      rw [List.map_map]
      refine List.map_congr_left ?_
      intro kv _
      simp only [Function.comp]
      split
      · exact (Eq.symm ‹_›)
      · rfl
    rwa [hkeys]
  · rename_i hnone
    rw [Option.not_isSome_iff_eq_none, get?_eq_none] at hnone
    rw [List.map_append, List.map_singleton, List.nodup_append]
    refine ⟨h, List.nodup_singleton key, ?_⟩
    intro k hk k' hk' heq
    obtain ⟨kv, hkv, rfl⟩ := List.mem_map.mp hk
    rw [List.mem_singleton] at hk'
    exact hnone kv hkv (heq.trans hk')

lemma value_unique {key : String} {d : Dict α} (h : (d.map Prod.fst).Nodup) {v w : α}
    (hv : (key, v) ∈ d) (hw : (key, w) ∈ d) : v = w := by
  have hsame := List.inj_on_of_nodup_map h hv hw rfl
  cases hsame
  rfl

@[simp] lemma mem_erase {key : String} {d : Dict α} {kv : String × α} :
    kv ∈ erase key d ↔ kv ∈ d ∧ kv.1 ≠ key := by
  simp [erase]

lemma get?_filter {key : String} {d : Dict α} {p : String × α → Bool}
    (h : ∀ v, p (key, v) = true) : get? key (d.filter p) = get? key d := by
  simp only [get?, List.find?_filter]
  congr 2
  funext kv
  by_cases hk : kv.1 = key
  · have hp := h kv.2
    rw [← hk] at hp
    simp [hk, hp]
  · simp [hk]

lemma get?_eraseAll {key : String} {keys : List String} (d : Dict α) (h : key ∉ keys) :
    get? key (eraseAll keys d) = get? key d :=
  get?_filter fun _ => by simpa using h

lemma get?_erase_of_ne {key key' : String} (d : Dict α) (h : key ≠ key') :
    get? key (erase key' d) = get? key d :=
  get?_filter fun _ => by simpa using h

lemma get?_append {key : String} (d : Dict α) (kv : String × α) :
    get? key (d ++ [kv]) = (get? key d).or (if kv.1 = key then some kv.2 else none) := by
  simp only [get?, List.find?_append, Option.map_or]
  by_cases hk : kv.1 = key <;> simp [hk]

lemma get?_map_other {key key' : String} (h : key ≠ key') (v : α) (d : Dict α) :
    get? key' (d.map fun kv => if kv.1 = key then (key, v) else kv) = get? key' d := by
  induction d with
  | nil => rfl
  | cons kv d ih =>
    rw [List.map_cons]
    by_cases hkv : kv.1 = key
    · have hne : kv.1 ≠ key' := fun h' => h (hkv.symm.trans h')
      simpa [get?, hkv, h] using ih
    · by_cases hkv' : kv.1 = key'
      · have hne : key' ≠ key := h.symm
        simp [get?, hkv', hne]
      · simpa [get?, List.find?_cons, hkv, hkv'] using ih

lemma get?_map_same {key : String} {d : Dict α} (h : (get? key d).isSome) (v : α) :
    get? key (d.map fun kv => if kv.1 = key then (key, v) else kv) = some v := by
  induction d with
  | nil => simp [get?] at h
  | cons kv d ih =>
    rw [List.map_cons]
    by_cases hkv : kv.1 = key
    · simp [get?, hkv]
    · have hrest : (get? key d).isSome := by simpa [get?, List.find?_cons, hkv] using h
      simpa [get?, List.find?_cons, hkv] using ih hrest

lemma get?_set {key key' : String} {d : Dict α} {v : α} :
    get? key' (set key v d) = if key = key' then some v else get? key' d := by
  simp only [set]
  by_cases hkey : key = key'
  · subst hkey
    by_cases hsome : (get? key d).isSome
    · rw [if_pos hsome, get?_map_same hsome, if_pos rfl]
    · rw [if_neg hsome, get?_append, if_pos rfl, Option.not_isSome_iff_eq_none.mp hsome]
      simp
  · rw [if_neg hkey]
    split
    · exact get?_map_other hkey v d
    · rw [get?_append]
      simp [hkey]

lemma eraseAll_of_new {keys : List String} {d : Dict α} (h : ∀ kv ∈ d, kv.1 ∉ keys) :
    eraseAll keys d = d := by
  simpa [eraseAll, List.filter_eq_self] using h

end Dict

/-- The built-ins that are left abstract: the JSON decoder, the text of values, the Unicode case
maps and `float` of a string. -/
structure Runtime where
  /-- `json.loads`; the error is the exception's class and text. -/
  loads : String → Except (String × String) Json
  repr : Json → String
  upper : String → String
  lower : String → String
  /-- `float(text)`; none stands for the `ValueError`. -/
  parseFloat : String → Option PyFloat := fun _ => none
  /-- `int(text)`; none stands for the `ValueError`. -/
  parseInt : String → Option ℤ := fun _ => none

/-- The built-ins of the context plane besides: `hashlib.sha256` of a text in hexadecimal,
`json.dumps` with sorted keys and `datetime.fromisoformat`, none standing for its `ValueError`. -/
structure Host extends Runtime where
  sha256 : String → String
  dumps : Json → String
  fromisoformat : String → Option DateTime

/-- `repr(text)`. -/
def Host.quote (host : Host) (s : String) : String := host.repr (.str s)

namespace Json

/-- `str(value)`. -/
def text (rt : Runtime) : Json → String
  | str s => s
  | value => rt.repr value

/-- `value or fallback`. -/
def orElse (value : Option Json) (fallback : Json) : Json :=
  match value with
  | some v => if v.truthy then v else fallback
  | none   => fallback

/-- `int(value)`; the error is the exception's class. -/
def toInt (rt : Runtime) : Json → Except String ℤ
  | bool b            => .ok (if b then 1 else 0)
  | int n             => .ok n
  | float (.finite q) => .ok (if 0 ≤ q then ⌊q⌋ else ⌈q⌉)
  | float (.inf _)    => .error "OverflowError"
  | float .nan        => .error "ValueError"
  | str s             =>
    match rt.parseInt s with
    | some n => .ok n
    | none   => .error "ValueError"
  | _                 => .error "TypeError"

/-- `float(value)`. -/
def toFloat (rt : Runtime) : Json → Except String PyFloat
  | bool b  => .ok (.finite (if b then 1 else 0))
  | int n   =>
    match floatOfInt n with
    | some q => .ok (.finite q)
    | none   => .error "OverflowError"
  | float x => .ok x
  | str s   =>
    match rt.parseFloat s with
    | some x => .ok x
    | none   => .error "ValueError"
  | _       => .error "TypeError"

/-- `list(value)`. -/
def toList : Json → Except String (List Json)
  | arr items  => .ok items
  | str s      => .ok (s.toList.map fun c => .str (String.ofList [c]))
  | obj fields => .ok (fields.map fun kv => .str kv.1)
  | _          => .error "TypeError"

end Json

end Python
