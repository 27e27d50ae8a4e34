import Mathlib.Data.String.Basic
import AgenticDynamics.Library.Python

/-!
# JSON documents up to the order of their keys

`json.dumps` with sorted keys writes the keys of each object in order, and two dictionaries are
equal in Python whatever the order of their keys.
-/

namespace Python.Json

/-! ### Sorting -/

/-- Put an entry in front of the first entry whose key is not smaller. -/
def insertField (key : String) (value : Json) : Dict Json → Dict Json
  | []         => [(key, value)]
  | kv :: rest =>
    if key ≤ kv.1 then (key, value) :: kv :: rest else kv :: insertField key value rest

mutual

/-- The document with the keys of every object in order. -/
def sortKeys : Json → Json
  | .arr items  => .arr (sortItems items)
  | .obj fields => .obj (sortFields fields)
  | value       => value

def sortItems : List Json → List Json
  | []            => []
  | value :: rest => sortKeys value :: sortItems rest

def sortFields : Dict Json → Dict Json
  | []                   => []
  | (key, value) :: rest => insertField key (sortKeys value) (sortFields rest)

end

/-- `a == b`. -/
def Same (a b : Json) : Prop := a.sortKeys = b.sortKeys

/-! ### What stays -/

@[simp] lemma sortKeys_null : sortKeys .null = .null := rfl

@[simp] lemma sortKeys_bool (b : Bool) : sortKeys (.bool b) = .bool b := rfl

@[simp] lemma sortKeys_int (n : ℤ) : sortKeys (.int n) = .int n := rfl

@[simp] lemma sortKeys_float (x : PyFloat) : sortKeys (.float x) = .float x := rfl

@[simp] lemma sortKeys_str (s : String) : sortKeys (.str s) = .str s := rfl

lemma sortItems_eq_map (items : List Json) : sortItems items = items.map sortKeys := by
  induction items with
  | nil => rfl
  | cons value rest ih => simp [sortItems, ih]

@[simp] lemma sortKeys_strings (items : List String) :
    sortKeys (.arr (items.map .str)) = .arr (items.map .str) := by
  simp [sortKeys, sortItems_eq_map]

lemma get?_insertField {key key' : String} {value : Json} (d : Dict Json) :
    Dict.get? key' (insertField key value d) =
      if key = key' then some value else Dict.get? key' d := by
  induction d with
  | nil => by_cases h : key = key' <;> simp [insertField, Dict.get?, h]
  | cons kv rest ih =>
    simp only [insertField]
    split_ifs with hle h h
    · simp [Dict.get?, h]
    · simp [Dict.get?, h]
    · have hother : kv.1 ≠ key' := by
        rintro rfl
        exact hle (le_of_eq h)
      rw [if_pos h] at ih
      simpa [Dict.get?, hother] using ih
    · rw [if_neg h] at ih
      by_cases hkv : kv.1 = key'
      · simp [Dict.get?, hkv]
      · simpa [Dict.get?, hkv] using ih

lemma get?_sortFields (key : String) (d : Dict Json) :
    Dict.get? key (sortFields d) = (Dict.get? key d).map sortKeys := by
  induction d with
  | nil => rfl
  | cons kv rest ih =>
    obtain ⟨k, value⟩ := kv
    rw [sortFields, get?_insertField, ih]
    by_cases h : k = key <;> simp [Dict.get?, h]

/-! ### Sorting once -/

lemma mem_insertField {key : String} {value : Json} {d : Dict Json} {kv : String × Json} :
    kv ∈ insertField key value d ↔ kv = (key, value) ∨ kv ∈ d := by
  induction d with
  | nil => simp [insertField]
  | cons first rest ih =>
    simp only [insertField]
    split_ifs
    · simp
    · simp only [List.mem_cons, ih]
      tauto

lemma insertField_sorted {key : String} {value : Json} {d : Dict Json}
    (h : d.Pairwise fun a b => a.1 ≤ b.1) :
    (insertField key value d).Pairwise fun a b => a.1 ≤ b.1 := by
  induction d with
  | nil => simp [insertField]
  | cons first rest ih =>
    obtain ⟨hfirst, hrest⟩ := List.pairwise_cons.mp h
    simp only [insertField]
    split_ifs with hle
    · refine List.pairwise_cons.mpr ⟨?_, h⟩
      rintro kv (_ | ⟨_, hkv⟩)
      · exact hle
      · exact hle.trans (hfirst kv hkv)
    · refine List.pairwise_cons.mpr ⟨?_, ih hrest⟩
      intro kv hkv
      rcases mem_insertField.mp hkv with rfl | hkv
      · exact (not_le.mp hle).le
      · exact hfirst kv hkv

lemma sortFields_sorted (d : Dict Json) : (sortFields d).Pairwise fun a b => a.1 ≤ b.1 := by
  induction d with
  | nil => exact List.Pairwise.nil
  | cons kv rest ih => exact insertField_sorted ih

lemma sortFields_of_sorted {d : Dict Json} (h : d.Pairwise fun a b => a.1 ≤ b.1)
    (hvalues : ∀ kv ∈ d, sortKeys kv.2 = kv.2) : sortFields d = d := by
  induction d with
  | nil => rfl
  | cons kv rest ih =>
    obtain ⟨hfirst, hrest⟩ := List.pairwise_cons.mp h
    obtain ⟨hvalue, hvalues⟩ := List.forall_mem_cons.mp hvalues
    rw [sortFields, ih hrest hvalues, hvalue]
    cases rest with
    | nil => rfl
    | cons next rest => rw [insertField, if_pos (hfirst next List.mem_cons_self)]

mutual

theorem sortKeys_idem : ∀ value : Json, sortKeys (sortKeys value) = sortKeys value
  | .null       => rfl
  | .bool _     => rfl
  | .int _      => rfl
  | .float _    => rfl
  | .str _      => rfl
  | .arr items  => congrArg Json.arr (sortItems_idem items)
  | .obj fields =>
    congrArg Json.obj (sortFields_of_sorted (sortFields_sorted fields) (sortFields_values fields))

theorem sortItems_idem : ∀ items : List Json, sortItems (sortItems items) = sortItems items
  | []            => rfl
  | value :: rest => congrArg₂ List.cons (sortKeys_idem value) (sortItems_idem rest)

theorem sortFields_values :
    ∀ (d : Dict Json), ∀ kv ∈ sortFields d, sortKeys kv.2 = kv.2
  | [],                   _,  h => absurd h List.not_mem_nil
  | (_, value) :: rest, kv, h => by
    rcases mem_insertField.mp h with rfl | h
    · exact sortKeys_idem value
    · exact sortFields_values rest kv h

end

lemma same_sortKeys (value : Json) : Same value.sortKeys value := sortKeys_idem value

/-! ### Objects that are equal -/

lemma insertField_perm (key : String) (value : Json) (d : Dict Json) :
    (insertField key value d).Perm ((key, value) :: d) := by
  induction d with
  | nil => exact List.Perm.refl _
  | cons first rest ih =>
    simp only [insertField]
    split_ifs
    · exact List.Perm.refl _
    · exact (ih.cons first).trans (List.Perm.swap _ _ _)

lemma sortFields_keys (d : Dict Json) : ((sortFields d).map Prod.fst).Perm (d.map Prod.fst) := by
  induction d with
  | nil => exact List.Perm.refl _
  | cons kv rest ih => exact ((insertField_perm _ _ _).map Prod.fst).trans (ih.cons kv.1)

lemma same_obj_iff {d d' : Dict Json} (hd : (d.map Prod.fst).Nodup)
    (hd' : (d'.map Prod.fst).Nodup) : Same (.obj d) (.obj d') ↔
      ∀ key, (Dict.get? key d).map sortKeys = (Dict.get? key d').map sortKeys := by
  rw [Same, sortKeys, sortKeys, obj.injEq]
  constructor
  · intro h key
    rw [← get?_sortFields, ← get?_sortFields, h]
  · intro h
    have hnodup := (sortFields_keys d).nodup_iff.mpr hd
    have hnodup' := (sortFields_keys d').nodup_iff.mpr hd'
    have hmem {e : Dict Json} (he : (e.map Prod.fst).Nodup) (key : String) (value : Json) :
        (key, value) ∈ e ↔ Dict.get? key e = some value := by
      refine ⟨fun hin => Dict.get?_of_mem hin ?_, Dict.mem_of_get?⟩
      rintro ⟨key', value'⟩ hin' rfl
      exact Dict.value_unique he hin' hin
    have hsame (kv : String × Json) : kv ∈ sortFields d ↔ kv ∈ sortFields d' := by
      obtain ⟨key, value⟩ := kv
      rw [hmem hnodup, hmem hnodup', get?_sortFields, get?_sortFields, h key]
    have hperm := (List.perm_ext_iff_of_nodup (List.Nodup.of_map _ hnodup)
      (List.Nodup.of_map _ hnodup')).mpr hsame
    refine hperm.eq_of_pairwise ?_ (sortFields_sorted d) (sortFields_sorted d')
    intro a b ha hb hab hba
    have hb' := (hsame b).mpr hb
    exact List.inj_on_of_nodup_map hnodup ha hb' (le_antisymm hab hba)

lemma same_arr_iff {items items' : List Json} :
    Same (.arr items) (.arr items') ↔ List.Forall₂ Same items items' := by
  rw [Same, sortKeys, sortKeys, arr.injEq, sortItems_eq_map, sortItems_eq_map,
    ← List.forall₂_eq_eq_eq, List.forall₂_map_left_iff, List.forall₂_map_right_iff]
  rfl

@[simp] lemma same_str_iff {s t : String} : Same (.str s) (.str t) ↔ s = t := by
  rw [Same, sortKeys_str, sortKeys_str, str.injEq]

@[simp] lemma same_bool_iff {a b : Bool} : Same (.bool a) (.bool b) ↔ a = b := by
  rw [Same, sortKeys_bool, sortKeys_bool, bool.injEq]

end Python.Json
