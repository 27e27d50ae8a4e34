import AgenticDynamics.Library.Python

/-!
# Dictionaries built in one pass

A loop over a list that reads the entry of an element's key and writes it back builds a
dictionary whose entries are folds over the elements of one key, in the order in which the keys
were met first.
-/

namespace Python

/-! ### First appearances -/

/-- The distinct texts of a list in the order in which they appear first. -/
def firsts (l : List String) : List String :=
  l.foldl (fun acc k => if k ∈ acc then acc else acc ++ [k]) []

@[simp] lemma firsts_nil : firsts [] = [] := rfl

lemma firsts_concat (l : List String) (k : String) :
    firsts (l ++ [k]) = if k ∈ firsts l then firsts l else firsts l ++ [k] := by
  rw [firsts, List.foldl_append]
  rfl

@[simp] lemma mem_firsts {l : List String} {k : String} : k ∈ firsts l ↔ k ∈ l := by
  induction l using List.reverseRecOn with
  | nil => simp
  | append_singleton l a ih =>
    rw [firsts_concat]
    split
    · rename_i ha
      constructor
      · intro hk
        exact List.mem_append_left _ (ih.mp hk)
      · intro hk
        rcases List.mem_append.mp hk with hk | hk
        · exact ih.mpr hk
        · rwa [List.mem_singleton.mp hk]
    · simp [ih]

lemma nodup_firsts (l : List String) : (firsts l).Nodup := by
  induction l using List.reverseRecOn with
  | nil => simp
  | append_singleton l a ih =>
    rw [firsts_concat]
    split
    · exact ih
    · rename_i ha
      refine List.nodup_append.mpr ⟨ih, List.nodup_singleton a, fun x hx y hy => ?_⟩
      rintro rfl
      exact ha (List.mem_singleton.mp hy ▸ hx)

lemma length_firsts_append (l more : List String) :
    (firsts l).length ≤ (firsts (l ++ more)).length := by
  refine ((nodup_firsts l).subperm fun k hk => ?_).length_le
  rw [mem_firsts] at hk ⊢
  exact List.mem_append_left more hk

lemma filter_firsts (p : String → Bool) (l : List String) :
    (firsts l).filter p = firsts (l.filter p) := by
  induction l using List.reverseRecOn with
  | nil => simp
  | append_singleton l a ih =>
    rw [firsts_concat, List.filter_append]
    cases hp : p a with
    | false => split <;> simp [ih, hp]
    | true =>
      have hmem : a ∈ firsts (l.filter p) ↔ a ∈ firsts l := by simp [hp]
      simp only [List.filter_cons, hp, if_true, List.filter_nil, firsts_concat, hmem]
      split
      · exact ih
      · simp [ih, hp]

/-! ### Building -/

namespace Dict

variable {α β : Type}

lemma keys_set (key : String) (value : β) (d : Dict β) :
    (d.set key value).map Prod.fst =
      if key ∈ d.map Prod.fst then d.map Prod.fst else d.map Prod.fst ++ [key] := by
  have hmem : (d.get? key).isSome ↔ key ∈ d.map Prod.fst := by
    rw [get?, Option.isSome_map, List.find?_isSome]
    simp
  rw [set]
  by_cases hkey : key ∈ d.map Prod.fst
  · rw [if_pos (hmem.mpr hkey), if_pos hkey, List.map_map]
    refine List.map_congr_left fun kv _ => ?_
    by_cases hk : kv.1 = key <;> simp [hk]
  · rw [if_neg fun h => hkey (hmem.mp h), if_neg hkey, List.map_append]
    rfl

lemma set_self {key : String} {value : β} {d : Dict β} (hd : (d.map Prod.fst).Nodup)
    (h : d.get? key = some value) : d.set key value = d := by
  rw [set, if_pos (by simp [h])]
  have hmem := mem_of_get? h
  conv_rhs => rw [← List.map_id d]
  refine List.map_congr_left fun kv hkv => ?_
  by_cases hk : kv.1 = key
  · subst hk
    rw [if_pos rfl, ← value_unique hd hkv hmem]
    rfl
  · rw [if_neg hk]
    rfl

/-- A pass that folds each element into the entry of its key. -/
def accumulate (key : α → String) (step : Option β → α → β) (l : List α) : Dict β :=
  l.foldl (fun d a => d.set (key a) (step (d.get? (key a)) a)) []

variable (key : α → String) (step : Option β → α → β)

lemma accumulate_concat (l : List α) (a : α) :
    accumulate key step (l ++ [a]) =
      (accumulate key step l).set (key a) (step ((accumulate key step l).get? (key a)) a) := by
  simp [accumulate]

lemma keys_accumulate (l : List α) :
    (accumulate key step l).map Prod.fst = firsts (l.map key) := by
  induction l using List.reverseRecOn with
  | nil => rfl
  | append_singleton l a ih =>
    rw [accumulate_concat, keys_set, ih, List.map_append, List.map_cons, List.map_nil,
      firsts_concat]

lemma nodup_accumulate (l : List α) : ((accumulate key step l).map Prod.fst).Nodup := by
  rw [keys_accumulate]
  exact nodup_firsts _

lemma get?_accumulate (l : List α) (k : String) :
    (accumulate key step l).get? k =
      (l.filter fun a => key a = k).foldl (fun entry a => some (step entry a)) none := by
  induction l using List.reverseRecOn with
  | nil => rfl
  | append_singleton l a ih =>
    rw [accumulate_concat, get?_set, List.filter_append]
    by_cases hk : key a = k
    · subst hk
      simp [ih]
    · simp [hk, ih]

lemma get?_collect {γ : Type} (f : α → γ) (l : List α) (k : String) :
    ((accumulate key (fun entry a => entry.getD [] ++ [f a]) l).get? k).getD [] =
      (l.filter fun a => key a = k).map f := by
  rw [get?_accumulate]
  induction (l.filter fun a => key a = k) using List.reverseRecOn with
  | nil => rfl
  | append_singleton l a ih => simp [← ih]

lemma get?_count (l : List String) (k : String) :
    (accumulate id (fun entry (_ : String) => entry.getD 0 + 1) l).get? k =
      if k ∈ l then some (l.count k) else none := by
  rw [get?_accumulate]
  induction l using List.reverseRecOn with
  | nil => rfl
  | append_singleton l a ih =>
    by_cases hk : a = k
    · subst hk
      by_cases hl : a ∈ l <;> simp_all [List.count_eq_zero]
    · simp_all [Ne.symm hk]

lemma get?_group (l : List α) (k : String) :
    (accumulate key (fun entry a => entry.getD [] ++ [a]) l).get? k =
      if (l.filter fun a => key a = k) = [] then none
      else some (l.filter fun a => key a = k) := by
  rw [get?_accumulate]
  induction (l.filter fun a => key a = k) using List.reverseRecOn with
  | nil => rfl
  | append_singleton l a ih =>
    rw [List.foldl_append, ih]
    by_cases hl : l = [] <;> simp [hl]

lemma set_cons_of_ne {k key : String} {value v : β} {d : Dict β} (hne : k ≠ key) :
    Dict.set key value ((k, v) :: d) = (k, v) :: Dict.set key value d := by
  have hget : get? key ((k, v) :: d) = get? key d := by simp [get?, hne]
  rw [set, set, hget]
  split_ifs
  · simp [hne]
  · rfl

lemma flatMap_set_append {k : String} {a : α} {d : Dict (List α)} (hd : (d.map Prod.fst).Nodup) :
    ((d.set k ((d.get? k).getD [] ++ [a])).flatMap Prod.snd).Perm (d.flatMap Prod.snd ++ [a]) := by
  induction d with
  | nil => exact .refl _
  | cons kv d ih =>
    obtain ⟨key, group⟩ := kv
    obtain ⟨hnew, hd⟩ := List.nodup_cons.mp hd
    by_cases hkey : key = k
    · have hrest : d.map (fun kv => if kv.1 = k then (k, group ++ [a]) else kv) = d := by
        conv_rhs => rw [← List.map_id d]
        refine List.map_congr_left fun kv hkv => if_neg fun heq => hnew ?_
        exact List.mem_map.mpr ⟨kv, hkv, heq.trans hkey.symm⟩
      have hget : get? k ((key, group) :: d) = some group := by simp [get?, hkey]
      rw [set, hget, Option.isSome_some, if_pos rfl, List.map_cons, if_pos hkey, Option.getD_some,
        hrest, List.flatMap_cons, List.flatMap_cons, List.append_assoc, List.append_assoc]
      exact List.Perm.append_left group List.perm_append_comm
    · have hget : get? k ((key, group) :: d) = get? k d := by simp [get?, hkey]
      rw [set_cons_of_ne hkey, hget, List.flatMap_cons, List.flatMap_cons, List.append_assoc]
      exact (ih hd).append_left group

lemma flatMap_collect {γ : Type} (f : α → γ) (l : List α) :
    ((accumulate key (fun entry a => entry.getD [] ++ [f a]) l).flatMap Prod.snd).Perm
      (l.map f) := by
  induction l using List.reverseRecOn with
  | nil => exact .refl _
  | append_singleton l a ih =>
    rw [accumulate_concat, List.map_append]
    exact (flatMap_set_append (nodup_accumulate key _ l)).trans (ih.append_right [f a])

lemma flatMap_group (l : List α) :
    ((accumulate key (fun entry a => entry.getD [] ++ [a]) l).flatMap Prod.snd).Perm l := by
  simpa using flatMap_collect key id l

lemma flatMap_set_tail {k : String} {a : α} {rest : List α} {d : Dict (List α)}
    (hd : (d.map Prod.fst).Nodup) (h : d.get? k = some (a :: rest)) :
    (a :: (d.set k rest).flatMap Prod.snd).Perm (d.flatMap Prod.snd) := by
  induction d with
  | nil => cases h
  | cons kv d ih =>
    obtain ⟨key, group⟩ := kv
    obtain ⟨hnew, hd⟩ := List.nodup_cons.mp hd
    by_cases hkey : key = k
    · have hrest : d.map (fun kv => if kv.1 = k then (k, rest) else kv) = d := by
        conv_rhs => rw [← List.map_id d]
        refine List.map_congr_left fun kv hkv => if_neg fun heq => hnew ?_
        exact List.mem_map.mpr ⟨kv, hkv, heq.trans hkey.symm⟩
      have hgroup : group = a :: rest := by simpa [get?, hkey] using h
      rw [set, h, Option.isSome_some, if_pos rfl, List.map_cons, if_pos hkey, hrest, hgroup]
      exact .refl _
    · have hget : get? k d = some (a :: rest) := by simpa [get?, hkey] using h
      rw [set_cons_of_ne hkey, List.flatMap_cons, List.flatMap_cons]
      exact List.perm_middle.symm.trans ((ih hd hget).append_left group)

end Dict

lemma mem_of_mapM_ok {α β ε : Type} {f : α → Except ε β} {l : List α} {l' : List β}
    (h : l.mapM f = .ok l') {b : β} : b ∈ l' ↔ ∃ a ∈ l, f a = .ok b := by
  induction l generalizing l' with
  | nil =>
    simp only [List.mapM_nil, pure, Except.pure, Except.ok.injEq] at h
    simp [← h]
  | cons a l ih =>
    simp only [List.mapM_cons, bind_eq_ok, pure, Except.pure, Except.ok.injEq] at h
    obtain ⟨b', hb', rest, hrest, rfl⟩ := h
    simp [hb', ih hrest, eq_comm]

end Python
