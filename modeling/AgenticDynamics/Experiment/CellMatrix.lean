import AgenticDynamics.Library.Python

/-!
# The cells of an experiment matrix

One cell for each way to choose a level of every active factor. The id of a cell joins the slugs of
the factors and their levels, so that levels are told apart by their slugs alone.
-/

namespace AgenticDynamics.Experiment

open Python

structure MatrixFactor where
  name : String
  levels : List String
  active : Bool := true

section Matrix

variable (isalnum : Char → Bool) (lower : String → String)

def slugify (value : String) : String :=
  let out := (value.toList.map fun ch => if isalnum ch then ch else '_')
  let bare := (out.dropWhile (· = '_')).rdropWhile (· = '_')
  orElse (some (lower (String.ofList bare))) "cell"

def cellId (name : String) (assignment : Dict String) : String :=
  slugify isalnum lower name ++ "_" ++ "_".intercalate (assignment.map fun kv =>
    slugify isalnum lower kv.1 ++ "_" ++ slugify isalnum lower kv.2)

/-- The assignments after one more factor. -/
def extend (cells : List (Dict String)) (factor : MatrixFactor) : List (Dict String) :=
  cells.flatMap fun cell => factor.levels.map fun level => cell.set factor.name level

/-- `experiment_matrix`, for a spec of this name. -/
def experimentMatrix (name : String) (factors : List MatrixFactor) : List (Dict String) :=
  ((factors.filter MatrixFactor.active).foldl extend [[]]).map fun assignment =>
    assignment.set "cell_id" (cellId isalnum lower name assignment)

/-- The ways to choose a level of each factor, the levels of the last one running fastest. -/
def assignments : List MatrixFactor → List (Dict String)
  | []             => [[]]
  | factor :: rest =>
    factor.levels.flatMap fun level => (assignments rest).map ((factor.name, level) :: ·)

/-- No level's slug is another's, or goes on behind another and an underscore. -/
def Separated (factor : MatrixFactor) : Prop :=
  ∀ level ∈ factor.levels, ∀ other ∈ factor.levels, level ≠ other →
    slugify isalnum lower level ≠ slugify isalnum lower other ∧
      ¬ startsWith (slugify isalnum lower other) (slugify isalnum lower level ++ "_")

variable {isalnum lower} {factors : List MatrixFactor} {a b : Dict String}

lemma foldl_extend (hnames : (factors.map MatrixFactor.name).Nodup) {cells : List (Dict String)}
    (hnew : ∀ cell ∈ cells, ∀ factor ∈ factors, ∀ kv ∈ cell, kv.1 ≠ factor.name) :
    factors.foldl extend cells =
      cells.flatMap fun cell => (assignments factors).map (cell ++ ·) := by
  induction factors generalizing cells with
  | nil => simp [assignments]
  | cons factor rest ih =>
    obtain ⟨hfresh, hrest⟩ := List.nodup_cons.mp hnames
    have hset : extend cells factor =
        cells.flatMap fun cell => factor.levels.map fun level => cell ++ [(factor.name, level)] := by
      refine List.flatMap_congr fun cell hcell => List.map_congr_left fun level _ => ?_
      exact Dict.set_of_new (hnew cell hcell factor List.mem_cons_self) level
    rw [List.foldl_cons, hset, ih hrest]
    · simp [assignments, List.flatMap_assoc, List.flatMap_map, List.map_flatMap, Function.comp_def]
    · intro cell hcell other hother kv hkv
      obtain ⟨old, hold, hcell⟩ := List.mem_flatMap.mp hcell
      obtain ⟨level, -, rfl⟩ := List.mem_map.mp hcell
      rcases List.mem_append.mp hkv with hkv | hkv
      · exact hnew old hold other (List.mem_cons_of_mem _ hother) kv hkv
      · rw [List.mem_singleton.mp hkv]
        intro heq
        exact hfresh (List.mem_map.mpr ⟨other, hother, heq.symm⟩)

lemma mem_assignments : a ∈ assignments factors ↔
    List.Forall₂ (fun kv factor => kv.1 = factor.name ∧ kv.2 ∈ factor.levels) a factors := by
  induction factors generalizing a with
  | nil => simp [assignments]
  | cons factor rest ih =>
    simp only [assignments, List.mem_flatMap, List.mem_map, ih, List.forall₂_cons_right_iff]
    constructor
    · rintro ⟨level, hlevel, rest', hrest, rfl⟩
      exact ⟨_, _, ⟨rfl, hlevel⟩, hrest, rfl⟩
    · rintro ⟨⟨_, level⟩, rest', ⟨rfl, hlevel⟩, hrest, rfl⟩
      exact ⟨level, hlevel, rest', hrest, rfl⟩

lemma nodup_assignments (hlevels : ∀ factor ∈ factors, factor.levels.Nodup) :
    (assignments factors).Nodup := by
  induction factors with
  | nil => simp [assignments]
  | cons factor rest ih =>
    obtain ⟨hfirst, hrest⟩ := List.forall_mem_cons.mp hlevels
    refine List.nodup_flatMap.mpr ⟨fun level _ => ?_, hfirst.imp fun hne => ?_⟩
    · exact (ih hrest).map fun a b h => (List.cons.inj h).2
    · rintro a ha hb
      obtain ⟨a, -, rfl⟩ := List.mem_map.mp ha
      obtain ⟨b, -, hsame⟩ := List.mem_map.mp hb
      exact hne (Prod.ext_iff.mp (List.cons.inj hsame).1).2.symm

/-! ### Ids -/

/-- What the id of an assignment has behind the spec's name. -/
def idTail (isalnum : Char → Bool) (lower : String → String) (a : Dict String) : List Char :=
  a.flatMap fun kv => '_' :: (slugify isalnum lower kv.1).toList ++
    '_' :: (slugify isalnum lower kv.2).toList

lemma toList_cellId {name : String} (ha : a ≠ []) :
    (cellId isalnum lower name a).toList =
      (slugify isalnum lower name).toList ++ idTail isalnum lower a := by
  have hjoin : '_' :: ("_".intercalate (a.map fun kv =>
      slugify isalnum lower kv.1 ++ "_" ++ slugify isalnum lower kv.2)).toList =
        idTail isalnum lower a := by
    induction a with
    | nil => exact absurd rfl ha
    | cons kv rest ih =>
      cases rest with
      | nil => simp [idTail]
      | cons kv' rest =>
        have hrest := ih (List.cons_ne_nil _ _)
        rw [idTail, List.flatMap_cons, ← idTail, ← hrest]
        simp [String.toList_intercalate]
  rw [cellId, String.toList_append, String.toList_append, ← hjoin]
  simp

lemma append_eq_cases {x y r s : List Char} (hr : r = [] ∨ ∃ t, r = '_' :: t)
    (hs : s = [] ∨ ∃ t, s = '_' :: t) (h : x ++ r = y ++ s) :
    x = y ∨ x ++ ['_'] <+: y ∨ y ++ ['_'] <+: x := by
  rcases List.append_eq_append_iff.mp h with ⟨m, rfl, rfl⟩ | ⟨m, rfl, rfl⟩
  · rcases hr with hr | ⟨t, hr⟩
    · obtain ⟨rfl, -⟩ := List.append_eq_nil_iff.mp hr
      simp
    · cases m with
      | nil => simp
      | cons c m =>
        cases hr
        exact .inr (.inl ⟨m, by simp⟩)
  · rcases hs with hs | ⟨t, hs⟩
    · obtain ⟨rfl, -⟩ := List.append_eq_nil_iff.mp hs
      simp
    · cases m with
      | nil => simp
      | cons c m =>
        cases hs
        exact .inr (.inr ⟨m, by simp⟩)

lemma idTail_start (a : Dict String) :
    idTail isalnum lower a = [] ∨ ∃ t, idTail isalnum lower a = '_' :: t := by
  cases a with
  | nil => exact .inl rfl
  | cons kv rest => exact .inr ⟨_, rfl⟩

lemma eq_of_idTail (hseparated : ∀ factor ∈ factors, Separated isalnum lower factor)
    (ha : a ∈ assignments factors) (hb : b ∈ assignments factors)
    (h : idTail isalnum lower a = idTail isalnum lower b) : a = b := by
  rw [mem_assignments] at ha hb
  induction ha generalizing b with
  | nil => rw [List.forall₂_nil_right_iff.mp hb]
  | @cons kv factor a factors hkv _ ih =>
    obtain ⟨kv', b, hkv', hb', rfl⟩ := List.forall₂_cons_right_iff.mp hb
    obtain ⟨hfactor, hrest⟩ := List.forall_mem_cons.mp hseparated
    obtain ⟨name, level⟩ := kv
    obtain ⟨name', level'⟩ := kv'
    obtain ⟨rfl, hlevel⟩ := hkv
    obtain ⟨rfl, hlevel'⟩ := hkv'
    simp only [idTail, List.flatMap_cons, List.cons_append, List.append_assoc, List.cons.injEq,
      true_and, List.append_cancel_left_eq] at h
    have hcases := append_eq_cases (idTail_start a) (idTail_start b) h
    have hsame : level = level' := by
      by_contra hne
      obtain ⟨hslug, hbehind⟩ := hfactor level hlevel level' hlevel' hne
      obtain ⟨-, hbehind'⟩ := hfactor level' hlevel' level hlevel (Ne.symm hne)
      simp only [startsWith, List.isPrefixOf_iff_prefix, String.toList_append] at hbehind hbehind'
      rcases hcases with heq | hpre | hpre
      · exact hslug (String.toList_inj.mp heq)
      · exact hbehind hpre
      · exact hbehind' hpre
    subst hsame
    rw [ih hrest hb' (List.append_cancel_left h)]

/-- One cell for each assignment; the ids are one exactly where the joined slugs are one, which is
never the case for two assignments of separated factors. -/
theorem experimentMatrix_cells (name : String) (factors : List MatrixFactor)
    (hnames : ((factors.filter MatrixFactor.active).map MatrixFactor.name).Nodup)
    (hlevels : ∀ factor ∈ factors.filter MatrixFactor.active, factor.levels.Nodup) :
    let active := factors.filter MatrixFactor.active
    experimentMatrix isalnum lower name factors = (assignments active).map (fun a =>
        a.set "cell_id" (cellId isalnum lower name a)) ∧
      (assignments active).Nodup ∧
      (∀ a, a ∈ assignments active ↔ List.Forall₂ (fun kv factor =>
        kv.1 = factor.name ∧ kv.2 ∈ factor.levels) a active) ∧
      ∀ a ∈ assignments active, ∀ b ∈ assignments active,
        (cellId isalnum lower name a = cellId isalnum lower name b ↔
          idTail isalnum lower a = idTail isalnum lower b) ∧
        ((∀ factor ∈ active, Separated isalnum lower factor) → a ≠ b →
          cellId isalnum lower name a ≠ cellId isalnum lower name b) := by
  intro active
  have hids {a b : Dict String} (ha : a ∈ assignments active) (hb : b ∈ assignments active) :
      cellId isalnum lower name a = cellId isalnum lower name b ↔
        idTail isalnum lower a = idTail isalnum lower b := by
    have hlength := (mem_assignments.mp ha).length_eq.trans (mem_assignments.mp hb).length_eq.symm
    cases a with
    | nil =>
      obtain rfl := List.length_eq_zero_iff.mp hlength.symm
      simp
    | cons kv a =>
      have hne : b ≠ [] := List.length_pos_iff.mp (by rw [← hlength]; exact Nat.succ_pos _)
      rw [← String.toList_inj, toList_cellId (List.cons_ne_nil _ _), toList_cellId hne,
        List.append_cancel_left_eq]
  refine ⟨?_, nodup_assignments hlevels, fun a => mem_assignments, fun a ha b hb =>
    ⟨hids ha hb, fun hseparated hne heq => hne ?_⟩⟩
  · rw [experimentMatrix, foldl_extend hnames (by simp)]
    simp [active]
  · exact eq_of_idTail hseparated ha hb ((hids ha hb).mp heq)

end Matrix

def modelFactors : List MatrixFactor :=
  [{ name := "model", levels := ["flash", "pro"] }, { name := "seed", levels := ["1", "2"] }]

theorem experimentMatrix_cells_models :
    cellId Char.isAlphanum id "grid" [("model", "flash"), ("seed", "1")] ≠
      cellId Char.isAlphanum id "grid" [("model", "pro"), ("seed", "1")] := by
  have hall : ∀ factor ∈ modelFactors.filter MatrixFactor.active, ∀ level ∈ factor.levels,
      ∀ other ∈ factor.levels, level ≠ other →
        slugify Char.isAlphanum id level ≠ slugify Char.isAlphanum id other ∧
          ¬ startsWith (slugify Char.isAlphanum id other)
            (slugify Char.isAlphanum id level ++ "_") := by
    decide +kernel
  have hcells := @experimentMatrix_cells Char.isAlphanum id "grid" modelFactors (by decide)
    (by decide)
  have hpair := hcells.2.2.2 [("model", "flash"), ("seed", "1")] (by decide)
    [("model", "pro"), ("seed", "1")] (by decide)
  exact hpair.2 (fun factor hfactor => hall factor hfactor) (by decide)

/-- Levels that differ in a character that is no letter and no digit, and levels that take the name
of the next factor, give cells of one id. -/
theorem slugs_collide :
    (∃ a ∈ assignments [⟨"model", ["a-b", "a_b"], true⟩],
      ∃ b ∈ assignments [⟨"model", ["a-b", "a_b"], true⟩], a ≠ b ∧
        cellId Char.isAlphanum id "grid" a = cellId Char.isAlphanum id "grid" b) ∧
    ∃ a ∈ assignments [⟨"m", ["x", "x_s_y"], true⟩, ⟨"s", ["z", "y_s_z"], true⟩],
      ∃ b ∈ assignments [⟨"m", ["x", "x_s_y"], true⟩, ⟨"s", ["z", "y_s_z"], true⟩], a ≠ b ∧
        cellId Char.isAlphanum id "grid" a = cellId Char.isAlphanum id "grid" b := by
  refine ⟨⟨[("model", "a-b")], ?_, [("model", "a_b")], ?_, ?_, ?_⟩,
    [("m", "x"), ("s", "y_s_z")], ?_, [("m", "x_s_y"), ("s", "z")], ?_, ?_, ?_⟩ <;>
    decide +kernel

end AgenticDynamics.Experiment
