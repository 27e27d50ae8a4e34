import AgenticDynamics.Library.Python

/-!
# Command lines

A parser of long options: a flag stands alone, any other option takes the token behind it, which
must not look like an option. A command line written one option after the other is read back option
by option.
-/

namespace Argparse

open Python

inductive Action (V : Type) where
  | flag (value : V)
  | store (convert : String → Option V)

structure OptionSpec (V : Type) where
  action : Action V
  fallback : V
  required : Bool := false

structure Parser (V : Type) where
  options : Dict (OptionSpec V)
  /-- The token is taken for an option. -/
  optionLike : String → Bool

section Parsing

variable {V : Type} (p : Parser V)

def actionOf (name : String) : Option (Action V) :=
  (Dict.get? name p.options).map OptionSpec.action

/-- Read the tokens after those that were found already; none stands for the usage error. -/
def scan : List String → Dict V → Option (Dict V)
  | [],            found => some found
  | token :: rest, found =>
    match actionOf p token with
    | none                  => none
    | some (.flag value)    => scan rest (found ++ [(token, value)])
    | some (.store convert) =>
      match rest with
      | []            => none
      | value :: rest =>
        if p.optionLike value then none
        else match convert value with
          | none       => none
          | some value => scan rest (found ++ [(token, value)])

/-- The value of an option: the last one found, else its default. -/
def valueOf (found : Dict V) (name : String) : Option V :=
  (Dict.get? name found.reverse).orElse fun _ => (Dict.get? name p.options).map (·.fallback)

/-- `parse_args`. -/
def parse (tokens : List String) : Option (String → Option V) := do
  let found ← scan p tokens []
  if p.options.all fun option => !option.2.required || (Dict.get? option.1 found).isSome then
    some (valueOf p found)
  else none

/-! ### Option by option -/

abbrev Segment := String × Option String

def tokens (segment : Segment) : List String := segment.1 :: segment.2.toList

def read (segment : Segment) : Option V :=
  match actionOf p segment.1, segment.2 with
  | some (.flag value),    none      => some value
  | some (.store convert), some text => if p.optionLike text then none else convert text
  | _,                     _         => none

/-- The option is known, and has a token behind it where it takes one. -/
def Fits (segment : Segment) : Prop :=
  match actionOf p segment.1, segment.2 with
  | some (.flag _),  none   => True
  | some (.store _), some _ => True
  | _,               _      => False

lemma scan_segment {segment : Segment} (h : Fits p segment) (rest : List String) (found : Dict V) :
    scan p (tokens segment ++ rest) found =
      (read p segment).bind fun value => scan p rest (found ++ [(segment.1, value)]) := by
  obtain ⟨name, text⟩ := segment
  simp only [Fits] at h
  simp only [tokens, read]
  cases haction : actionOf p name with
  | none => simp [haction] at h
  | some action =>
    rw [haction] at h
    cases action with
    | flag value =>
      cases text with
      | none      => simp [scan, haction]
      | some text => exact h.elim
    | store convert =>
      cases text with
      | none => exact h.elim
      | some text =>
        simp only [Option.toList_some, List.cons_append, scan, haction]
        split
        · rfl
        · cases convert text <;> rfl

theorem scan_segments {segments : List Segment} (h : ∀ segment ∈ segments, Fits p segment)
    {found found' : Dict V} :
    scan p (segments.flatMap tokens) found = some found' ↔
      ∃ values, List.Forall₂ (fun segment entry =>
        entry.1 = segment.1 ∧ read p segment = some entry.2) segments values ∧
        found' = found ++ values := by
  induction segments generalizing found with
  | nil => simp [scan, eq_comm]
  | cons segment segments ih =>
    rw [List.flatMap_cons, scan_segment p (h segment (by simp))]
    have hrest := fun found => @ih (fun s hs => h s (by simp [hs])) found
    constructor
    · intro hscan
      obtain ⟨value, hvalue, hscan⟩ := Option.bind_eq_some_iff.mp hscan
      obtain ⟨values, hvalues, rfl⟩ := (hrest _).mp hscan
      exact ⟨(segment.1, value) :: values, .cons ⟨rfl, hvalue⟩ hvalues, by simp⟩
    · rintro ⟨_, hvalues, rfl⟩
      cases hvalues with
      | cons hentry hvalues =>
        rename_i entry values
        obtain ⟨name, value⟩ := entry
        obtain ⟨rfl, hvalue⟩ := hentry
        rw [hvalue, Option.bind_some]
        exact (hrest _).mpr ⟨values, hvalues, by simp⟩

/-! ### A command line that is wanted -/

/-- An option, what stands for it on the command line, and the value that is wanted of it. -/
structure Arg (V : Type) where
  name : String
  given : Option (Option String)
  wanted : V

def Arg.segment (f : Arg V) : Option Segment := f.given.map fun text => (f.name, text)

def commandLine (fields : List (Arg V)) : List String :=
  (fields.filterMap Arg.segment).flatMap tokens

/-- The option yields the wanted value: read, or as its default. -/
def Arg.Survives (f : Arg V) : Prop :=
  match f.given with
  | none      => (Dict.get? f.name p.options).map OptionSpec.fallback = some f.wanted
  | some text => read p (f.name, text) = some f.wanted

section Found

variable {p} {fields : List (Arg V)} {values : Dict V}
  (hvalues : List.Forall₂ (fun segment entry =>
    entry.1 = segment.1 ∧ read p segment = some entry.2) (fields.filterMap Arg.segment) values)

include hvalues

lemma exists_of_mem {entry : String × V} (h : entry ∈ values) :
    ∃ f ∈ fields, ∃ text, f.given = some text ∧ f.name = entry.1 ∧
      read p (f.name, text) = some entry.2 := by
  obtain ⟨segment, hsegment, hname, hread⟩ := (forall₂_mem hvalues).2 _ h
  obtain ⟨f, hf, hseg⟩ := List.mem_filterMap.mp hsegment
  obtain ⟨text, hgiven, rfl⟩ := Option.map_eq_some_iff.mp hseg
  exact ⟨f, hf, text, hgiven, hname.symm, hread⟩

lemma mem_of_given {f : Arg V} (hf : f ∈ fields) {text : Option String}
    (hgiven : f.given = some text) :
    ∃ value, read p (f.name, text) = some value ∧ (f.name, value) ∈ values := by
  have hsegment : (f.name, text) ∈ fields.filterMap Arg.segment :=
    List.mem_filterMap.mpr ⟨f, hf, by simp [Arg.segment, hgiven]⟩
  obtain ⟨⟨name, value⟩, hmem, rfl, hread⟩ := (forall₂_mem hvalues).1 _ hsegment
  exact ⟨value, hread, hmem⟩

lemma valueOf_given (hnodup : (fields.map Arg.name).Nodup) {f : Arg V} (hf : f ∈ fields)
    {text : Option String} (hgiven : f.given = some text) :
    ∃ value, read p (f.name, text) = some value ∧ (Dict.get? f.name values).isSome = true ∧
      valueOf p values f.name = some value := by
  obtain ⟨value, hread, hmem⟩ := mem_of_given hvalues hf hgiven
  have hall : ∀ entry ∈ values, entry.1 = f.name → entry.2 = value := by
    intro entry hentry hname
    obtain ⟨g, hg, text', hgiven', hgname, hread'⟩ := exists_of_mem hvalues hentry
    obtain rfl := List.inj_on_of_nodup_map hnodup hg hf (hgname.trans hname)
    obtain rfl := Option.some.inj (hgiven.symm.trans hgiven')
    exact Option.some.inj (hread'.symm.trans hread)
  have hget := Dict.get?_of_mem hmem hall
  have hlast := Dict.get?_of_mem (List.mem_reverse.mpr hmem)
    fun entry hentry => hall entry (List.mem_reverse.mp hentry)
  exact ⟨value, hread, by simp [hget], by simp [valueOf, hlast]⟩

lemma valueOf_missing (hnodup : (fields.map Arg.name).Nodup) {f : Arg V} (hf : f ∈ fields)
    (hgiven : f.given = none) :
    valueOf p values f.name = (Dict.get? f.name p.options).map OptionSpec.fallback := by
  have hnone : Dict.get? f.name values.reverse = none := by
    rw [Dict.get?_eq_none]
    intro entry hentry hname
    obtain ⟨g, hg, text, hgiven', hgname, -⟩ :=
      exists_of_mem hvalues (List.mem_reverse.mp hentry)
    obtain rfl := List.inj_on_of_nodup_map hnodup hg hf (hgname.trans hname)
    simp [hgiven] at hgiven'
  simp [valueOf, hnone]

end Found

lemma exists_values {segments : List Segment}
    (h : ∀ segment ∈ segments, ∃ value, read p segment = some value) :
    ∃ values : Dict V, List.Forall₂ (fun segment entry =>
      entry.1 = segment.1 ∧ read p segment = some entry.2) segments values := by
  induction segments with
  | nil => exact ⟨[], .nil⟩
  | cons segment segments ih =>
    obtain ⟨value, hvalue⟩ := h segment (by simp)
    obtain ⟨values, hvalues⟩ := ih fun s hs => h s (by simp [hs])
    exact ⟨(segment.1, value) :: values, .cons ⟨rfl, hvalue⟩ hvalues⟩

/-- Parsing the command line yields what is wanted of every field exactly when every field survives:
no option is written twice, each fits, and those that are required are there. -/
theorem parse_commandLine {fields : List (Arg V)} (hnodup : (fields.map Arg.name).Nodup)
    (hfits : ∀ f ∈ fields, ∀ text, f.given = some text → Fits p (f.name, text))
    (hrequired : ∀ option ∈ p.options, option.2.required = true →
      ∃ f ∈ fields, f.name = option.1 ∧ f.given.isSome = true) :
    (∃ values, parse p (commandLine fields) = some values ∧
      ∀ f ∈ fields, values f.name = some f.wanted) ↔ ∀ f ∈ fields, f.Survives p := by
  have hsegments : ∀ segment ∈ fields.filterMap Arg.segment, Fits p segment := by
    intro segment hsegment
    obtain ⟨f, hf, hseg⟩ := List.mem_filterMap.mp hsegment
    obtain ⟨text, hgiven, rfl⟩ := Option.map_eq_some_iff.mp hseg
    exact hfits f hf text hgiven
  constructor
  · rintro ⟨_, hparse, hwanted⟩ f hf
    obtain ⟨found, hscan, hfound⟩ := Option.bind_eq_some_iff.mp hparse
    obtain ⟨values, hvalues, rfl⟩ := (scan_segments p hsegments).mp hscan
    split_ifs at hfound
    obtain rfl := Option.some.inj hfound
    rw [Arg.Survives]
    split
    · rename_i hgiven
      rw [← valueOf_missing hvalues hnodup hf hgiven]
      exact hwanted f hf
    · rename_i text hgiven
      obtain ⟨value, hread, -, hvalue⟩ := valueOf_given hvalues hnodup hf hgiven
      rw [hread, ← hvalue]
      exact hwanted f hf
  · intro hsurvives
    have hread (f : Arg V) (hf : f ∈ fields) {text : Option String}
        (hgiven : f.given = some text) : read p (f.name, text) = some f.wanted := by
      simpa [Arg.Survives, hgiven] using hsurvives f hf
    obtain ⟨values, hvalues⟩ := @exists_values _ p (fields.filterMap Arg.segment) (by
      intro segment hsegment
      obtain ⟨f, hf, hseg⟩ := List.mem_filterMap.mp hsegment
      obtain ⟨text, hgiven, rfl⟩ := Option.map_eq_some_iff.mp hseg
      exact ⟨f.wanted, hread f hf hgiven⟩)
    have hscan : scan p (commandLine fields) [] = some values :=
      (scan_segments p hsegments).mpr ⟨values, hvalues, rfl⟩
    have hall : (p.options.all fun option =>
        !option.2.required || (Dict.get? option.1 values).isSome) = true := by
      rw [List.all_eq_true]
      intro option hoption
      rw [Bool.or_eq_true, Bool.not_eq_true', or_iff_not_imp_left, Bool.not_eq_false]
      intro hneeded
      obtain ⟨f, hf, hname, hgiven⟩ := hrequired option hoption hneeded
      obtain ⟨text, hgiven⟩ := Option.isSome_iff_exists.mp hgiven
      obtain ⟨value, -, hfound, -⟩ := valueOf_given hvalues hnodup hf hgiven
      rwa [← hname]
    refine ⟨valueOf p values, by simp [parse, hscan, hall], ?_⟩
    intro f hf
    cases hgiven : f.given with
    | none =>
      rw [valueOf_missing hvalues hnodup hf hgiven]
      simpa [Arg.Survives, hgiven] using hsurvives f hf
    | some text =>
      obtain ⟨value, hvalue, -, hfound⟩ := valueOf_given hvalues hnodup hf hgiven
      rw [hfound, ← hvalue, hread f hf hgiven]

end Parsing

end Argparse
