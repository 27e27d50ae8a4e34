import AgenticDynamics.Knowledge.ScopeFilter

/-!
# Where the store's filter and the gates agree

The translation of a `where` document keeps its meaning. The store never accepts what a gate
excludes; it refuses more where a property is null, is not trimmed, or is the commit of a record
whose authority is neither code nor exempt.
-/

namespace AgenticDynamics.Knowledge.Retrieval

open Python Cypher
open Context (Authority)

/-! ### What a `where` document says -/

section Documents

variable (node : String → Option String)

def Equals (key : String) (value : Json) : Prop :=
  ∃ s, node key = some s ∧ compareText s value = some true

mutual

def Matches : Json → Prop
  | .obj fields => fields ≠ [] ∧ MatchesFields fields
  | _           => False

def MatchesFields : Dict Json → Prop
  | []                   => True
  | (key, value) :: rest => MatchesField key value ∧ MatchesFields rest

def MatchesField (key : String) : Json → Prop
  | .arr items  =>
    key = "$and" ∧ items ≠ [] ∧ MatchesAll items ∨ key = "$or" ∧ MatchesAny items
  | .obj fields =>
    key ≠ "$and" ∧ key ≠ "$or" ∧ ∃ value, Dict.get? "$eq" fields = some value ∧ Equals node key value
  | value       => key ≠ "$and" ∧ key ≠ "$or" ∧ Equals node key value

def MatchesAll : List Json → Prop
  | []          => True
  | doc :: rest => Matches doc ∧ MatchesAll rest

def MatchesAny : List Json → Prop
  | []          => False
  | doc :: rest => Matches doc ∨ MatchesAny rest

end

end Documents

section Documents

variable {node : String → Option String}

lemma matchesAll_iff {docs : List Json} : MatchesAll node docs ↔ ∀ doc ∈ docs, Matches node doc := by
  induction docs with
  | nil => simp [MatchesAll]
  | cons doc rest ih => simp [MatchesAll, ih]

lemma matchesAny_iff {docs : List Json} : MatchesAny node docs ↔ ∃ doc ∈ docs, Matches node doc := by
  induction docs with
  | nil => simp [MatchesAny]
  | cons doc rest ih => simp [MatchesAny, ih]

lemma matches_field {key s : String} (hand : key ≠ "$and") (hor : key ≠ "$or") :
    Matches node (.obj [(key, .str s)]) ↔ node key = some s := by
  simp [Matches, MatchesFields, MatchesField, Equals, compareText, hand, hor]

lemma matches_or {docs : List Json} :
    Matches node (.obj [("$or", .arr docs)]) ↔ ∃ doc ∈ docs, Matches node doc := by
  rw [← matchesAny_iff]
  simp [Matches, MatchesFields, MatchesField]

lemma matches_and {docs : List Json} (hne : docs ≠ []) :
    Matches node (.obj [("$and", .arr docs)]) ↔ ∀ doc ∈ docs, Matches node doc := by
  rw [← matchesAll_iff]
  simp [Matches, MatchesFields, MatchesField, hne]

end Documents

/-! ### The names of the parameters -/

section Translation

variable {start : ℕ} {node : String → Option String}

/-- No parameter has a name that is still to be given. -/
def Fresh (start : ℕ) (params : Dict Json) : Prop :=
  ∀ n, params.length + start ≤ n → Dict.get? ("p" ++ toString n) params = none

def Extends (params params' : Dict Json) : Prop :=
  ∀ name value, Dict.get? name params = some value → Dict.get? name params' = some value

lemma Extends.refl (params : Dict Json) : Extends params params := fun _ _ h => h

lemma Extends.trans {a b c : Dict Json} (hab : Extends a b) (hbc : Extends b c) : Extends a c :=
  fun name value h => hbc name value (hab name value h)

lemma paramName_ne {m n : ℕ} (hne : m ≠ n) : "p" ++ toString m ≠ "p" ++ toString n := by
  intro heq
  have hlists := congrArg String.toList heq
  simp only [String.toList_append] at hlists
  have hdigits : Nat.toDigits 10 m = Nat.toDigits 10 n := by
    simpa [Nat.toString_eq_ofList_toDigits] using List.append_cancel_left hlists
  apply hne
  rw [← Nat.ofDigitChars_ten_toDigits (n := m), hdigits, Nat.ofDigitChars_ten_toDigits]

lemma set_paramName {value : Json} {params : Dict Json} (hfresh : Fresh start params) :
    Dict.set (paramName start params) value params = params ++ [(paramName start params, value)] := by
  have hnone : Dict.get? (paramName start params) params = none := hfresh _ le_rfl
  simp [Dict.set, hnone]

/-- A predicate and its parameters mean what they should, also when parameters are added. -/
structure Translates (start : ℕ) (node : String → Option String) (params params' : Dict Json)
    (e : Expr) (meaning : Prop) : Prop where
  extended : Extends params params'
  fresh : Fresh start params'
  means : ∀ final, Extends params' final →
    (e.Holds compareText node (fun name => Dict.get? name final) ↔ meaning)

lemma leaf_translates {key : String} {value : Json} {params : Dict Json}
    (hfresh : Fresh start params) :
    Translates start node params (leaf start key value params).2 (leaf start key value params).1
      (Equals node key value) := by
  have hset : Dict.set (paramName start params) value params =
      params ++ [(paramName start params, value)] := set_paramName hfresh
  constructor
  · intro name v h
    rw [leaf, hset, Dict.get?_append, h]
    rfl
  · intro n hn
    rw [leaf, hset, List.length_append, List.length_singleton] at hn
    have hne : paramName start params ≠ "p" ++ toString n := paramName_ne (by omega)
    rw [leaf, hset, Dict.get?_append, hfresh n (by omega), if_neg hne]
    rfl
  · intro final hfinal
    have hget : Dict.get? (paramName start params) final = some value := by
      refine hfinal _ _ ?_
      have hnone : Dict.get? (paramName start params) params = none := hfresh _ le_rfl
      rw [leaf, hset, Dict.get?_append, hnone, if_pos rfl]
      rfl
    rw [leaf, holds_equals]
    simp [hget, Equals]

lemma empty_translates {key : String} {params : Dict Json} {meaning : Prop}
    (hfresh : Fresh start params) (hnot : ¬ meaning) :
    Translates start node params params (joined key []) meaning where
  extended := .refl params
  fresh := hfresh
  means final _ := by
    rw [joined]
    split_ifs <;> simp [holds_all, holds_any, hnot]

/-! ### The translation -/

/-- The clauses that several translations give. -/
structure TranslateAll (start : ℕ) (node : String → Option String) (params params' : Dict Json)
    (clauses : List Expr) (all any : Prop) : Prop where
  extended : Extends params params'
  fresh : Fresh start params'
  every : ∀ final, Extends params' final →
    ((∀ e ∈ clauses, e.Holds compareText node fun name => Dict.get? name final) ↔ all)
  some : ∀ final, Extends params' final →
    ((∃ e ∈ clauses, e.Holds compareText node fun name => Dict.get? name final) ↔ any)

lemma TranslateAll.nil {params : Dict Json} (hfresh : Fresh start params) :
    TranslateAll start node params params [] True False where
  extended := .refl params
  fresh := hfresh
  every := by simp
  some := by simp

lemma Translates.cons {params params' params'' : Dict Json} {e : Expr} {clauses : List Expr}
    {meaning all any : Prop} (he : Translates start node params params' e meaning)
    (hrest : TranslateAll start node params' params'' clauses all any) :
    TranslateAll start node params params'' (e :: clauses) (meaning ∧ all) (meaning ∨ any) where
  extended := he.extended.trans hrest.extended
  fresh := hrest.fresh
  every final hfinal := by
    rw [List.forall_mem_cons, he.means final (hrest.extended.trans hfinal), hrest.every final hfinal]
  some final hfinal := by
    rw [List.exists_mem_cons_iff, he.means final (hrest.extended.trans hfinal),
      hrest.some final hfinal]

lemma Translates.congr {params params' : Dict Json} {e : Expr} {p q : Prop}
    (he : Translates start node params params' e p) (hpq : p ↔ q) :
    Translates start node params params' e q where
  extended := he.extended
  fresh := he.fresh
  means final hfinal := (he.means final hfinal).trans hpq

lemma walkOther_translates {key : String} {value : Json} (hvalue : ∀ items, value ≠ .arr items)
    {params params' : Dict Json} {e : Expr} (hfresh : Fresh start params)
    (hwalk : walkOther start key value params = .ok (e, params')) :
    Translates start node params params' e (MatchesField node key value) := by
  have hfield : MatchesField node key value → key ≠ "$and" ∧ key ≠ "$or" := by
    cases value with
    | arr items => exact absurd rfl (hvalue items)
    | _ => exact fun hmeaning => ⟨hmeaning.1, hmeaning.2.1⟩
  unfold walkOther at hwalk
  split_ifs at hwalk with hjoins heq
  · -- a combinator of nothing
    have hnot : ¬ MatchesField node key value := fun hmeaning =>
      hjoins.elim (hfield hmeaning).1 (hfield hmeaning).2
    split at hwalk
    · simp at hwalk
    · obtain ⟨rfl, rfl⟩ := Prod.mk.inj (Except.ok.inj hwalk)
      exact empty_translates hfresh hnot
    · simp at hwalk
  · rw [not_or] at hjoins
    split at hwalk
    · split at hwalk
      · rename_i inner hinner
        split_ifs at hwalk
        obtain ⟨rfl, rfl⟩ := Prod.mk.inj (Except.ok.inj hwalk)
        exact (leaf_translates hfresh).congr (by simp [MatchesField, hjoins, hinner])
      · simp at hwalk
    · obtain ⟨rfl, rfl⟩ := Prod.mk.inj (Except.ok.inj hwalk)
      refine (leaf_translates hfresh).congr ?_
      cases value with
      | arr items => exact absurd rfl (hvalue items)
      | obj fields => simp_all
      | _ => simp [MatchesField, hjoins]

mutual

lemma walk_translates : ∀ (doc : Json) {params params' : Dict Json} {e : Expr},
    Fresh start params → walk start doc params = .ok (e, params') →
      Translates start node params params' e (Matches node doc)
  | .obj fields, params, params', e, hfresh, hwalk => by
    simp only [walk, bind_eq_ok] at hwalk
    obtain ⟨⟨clauses, params''⟩, hfields, hwalk⟩ := hwalk
    obtain ⟨hnil, any, hall⟩ := walkFields_translates fields hfresh hfields
    by_cases hclauses : clauses = []
    · simp [hclauses] at hwalk
    · obtain ⟨rfl, rfl⟩ : .all clauses = e ∧ params'' = params' := by simpa [hclauses] using hwalk
      refine ⟨hall.extended, hall.fresh, fun final hfinal => ?_⟩
      rw [holds_all, hall.every final hfinal, Matches, ne_eq, hnil]
  | .null, _, _, _, _, hwalk => by simp [walk] at hwalk
  | .bool _, _, _, _, _, hwalk => by simp [walk] at hwalk
  | .int _, _, _, _, _, hwalk => by simp [walk] at hwalk
  | .float _, _, _, _, _, hwalk => by simp [walk] at hwalk
  | .str _, _, _, _, _, hwalk => by simp [walk] at hwalk
  | .arr _, _, _, _, _, hwalk => by simp [walk] at hwalk

lemma walkFields_translates : ∀ (fields : Dict Json) {params params' : Dict Json}
    {clauses : List Expr}, Fresh start params → walkFields start fields params = .ok (clauses, params') →
      (clauses = [] ↔ fields = []) ∧ ∃ any,
        TranslateAll start node params params' clauses (MatchesFields node fields) any
  | [], params, params', clauses, hfresh, hwalk => by
    obtain ⟨rfl, rfl⟩ : [] = clauses ∧ params = params' := by simpa [walkFields] using hwalk
    exact ⟨iff_of_true rfl rfl, False, .nil hfresh⟩
  | (key, value) :: rest, params, params', clauses, hfresh, hwalk => by
    simp only [walkFields, bind_eq_ok] at hwalk
    obtain ⟨⟨clause, params₁⟩, hclause, ⟨clauses', params₂⟩, hclauses, hwalk⟩ := hwalk
    obtain ⟨rfl, rfl⟩ : clause :: clauses' = clauses ∧ params₂ = params' := by
      simpa [pure, Except.pure] using hwalk
    have hfirst := walkField_translates key value hfresh hclause
    obtain ⟨-, any, hrest⟩ := walkFields_translates rest hfirst.fresh hclauses
    exact ⟨by simp, _, hfirst.cons hrest⟩

lemma walkField_translates (key : String) : ∀ (value : Json) {params params' : Dict Json} {e : Expr},
    Fresh start params → walkField start key value params = .ok (e, params') →
      Translates start node params params' e (MatchesField node key value)
  | .arr items, params, params', e, hfresh, hwalk => by
    rw [walkField] at hwalk
    split_ifs at hwalk with hjoins
    · simp only [bind_eq_ok] at hwalk
      obtain ⟨⟨clauses, params''⟩, hitems, hwalk⟩ := hwalk
      obtain ⟨rfl, rfl⟩ : joined key clauses = e ∧ params'' = params' := by
        simpa [pure, Except.pure] using hwalk
      obtain ⟨hnil, hall⟩ := walkItems_translates items hfresh hitems
      refine ⟨hall.extended, hall.fresh, fun final hfinal => ?_⟩
      rcases hjoins with rfl | rfl
      · have hne : clauses ≠ [] ↔ items ≠ [] := hnil.not
        simp [joined, holds_all, MatchesField, hall.every final hfinal, hne]
      · simp [joined, holds_any, MatchesField, hall.some final hfinal]
    · obtain ⟨rfl, rfl⟩ := Prod.mk.inj (Except.ok.inj hwalk)
      refine (leaf_translates hfresh).congr ?_
      rw [not_or] at hjoins
      simp [MatchesField, hjoins, Equals, compareText]
  | .obj fields, _, _, _, hfresh, hwalk =>
    walkOther_translates (by simp) hfresh (by simpa only [walkField] using hwalk)
  | .null, _, _, _, hfresh, hwalk =>
    walkOther_translates (by simp) hfresh (by simpa only [walkField] using hwalk)
  | .bool b, _, _, _, hfresh, hwalk =>
    walkOther_translates (by simp) hfresh (by simpa only [walkField] using hwalk)
  | .int n, _, _, _, hfresh, hwalk =>
    walkOther_translates (by simp) hfresh (by simpa only [walkField] using hwalk)
  | .float x, _, _, _, hfresh, hwalk =>
    walkOther_translates (by simp) hfresh (by simpa only [walkField] using hwalk)
  | .str s, _, _, _, hfresh, hwalk =>
    walkOther_translates (by simp) hfresh (by simpa only [walkField] using hwalk)

lemma walkItems_translates : ∀ (items : List Json) {params params' : Dict Json}
    {clauses : List Expr}, Fresh start params → walkItems start items params = .ok (clauses, params') →
      (clauses = [] ↔ items = []) ∧
        TranslateAll start node params params' clauses (MatchesAll node items) (MatchesAny node items)
  | [], params, params', clauses, hfresh, hwalk => by
    obtain ⟨rfl, rfl⟩ : [] = clauses ∧ params = params' := by simpa [walkItems] using hwalk
    exact ⟨iff_of_true rfl rfl, .nil hfresh⟩
  | doc :: rest, params, params', clauses, hfresh, hwalk => by
    simp only [walkItems, bind_eq_ok] at hwalk
    obtain ⟨⟨clause, params₁⟩, hclause, ⟨clauses', params₂⟩, hclauses, hwalk⟩ := hwalk
    obtain ⟨rfl, rfl⟩ : clause :: clauses' = clauses ∧ params₂ = params' := by
      simpa [pure, Except.pure] using hwalk
    have hfirst := walk_translates doc hfresh hclause
    have hrest := (walkItems_translates rest hfirst.fresh hclauses).2
    exact ⟨by simp, hfirst.cons hrest⟩

end

/-! ### Documents that translate -/

def Walks (start : ℕ) (doc : Json) : Prop := ∀ params, ∃ result, walk start doc params = .ok result

lemma walkItems_ok {docs : List Json} (hdocs : ∀ doc ∈ docs, Walks start doc) (params : Dict Json) :
    ∃ result, walkItems start docs params = .ok result := by
  induction docs generalizing params with
  | nil => exact ⟨_, by rw [walkItems]⟩
  | cons doc rest ih =>
    obtain ⟨hdoc, hrest⟩ := List.forall_mem_cons.mp hdocs
    obtain ⟨first, hfirst⟩ := hdoc params
    obtain ⟨others, hothers⟩ := ih hrest first.2
    exact ⟨_, by simp only [walkItems, hfirst, hothers, bind, Except.bind]; rfl⟩

lemma walks_join {key : String} {docs : List Json} (hkey : key = "$and" ∨ key = "$or")
    (hdocs : ∀ doc ∈ docs, Walks start doc) : Walks start (.obj [(key, .arr docs)]) := by
  intro params
  obtain ⟨result, hresult⟩ := walkItems_ok hdocs params
  exact ⟨_, by simp only [walk, walkFields, walkField, hkey, hresult, bind, Except.bind]; rfl⟩

lemma walks_field {key s : String} (hand : key ≠ "$and") (hor : key ≠ "$or") (heq : key ≠ "$eq") :
    Walks start (.obj [(key, .str s)]) := by
  intro params
  exact ⟨_, by simp only [walk, walkFields, walkField, walkOther, hand, hor, heq, or_self,
    if_false, bind, Except.bind]; rfl⟩

end Translation

/-! ### The document of the dense leg -/

section Filter

variable {host : Host} {filters : Filters} {node : Node} {start : ℕ}

/-- The properties that the filter asks for. -/
def FilterField (key : String) : Prop :=
  key = "repository_id" ∨ key = "acl_scope" ∨ key = "commit_sha" ∨ key = "authority"

lemma FilterField.ne {key : String} (hkey : FilterField key) :
    key ≠ "$and" ∧ key ≠ "$or" ∧ key ≠ "$eq" := by
  rcases hkey with rfl | rfl | rfl | rfl <;> simp

lemma walks_anyOf {clauses : List (String × String)} (hkeys : ∀ c ∈ clauses, FilterField c.1) :
    Walks start (anyOf clauses) := by
  refine walks_join (.inr rfl) fun doc hdoc => ?_
  obtain ⟨c, hc, rfl⟩ := List.mem_map.mp hdoc
  obtain ⟨hand, hor, heq⟩ := (hkeys c hc).ne
  exact walks_field hand hor heq

lemma matches_anyOf {clauses : List (String × String)} (hkeys : ∀ c ∈ clauses, FilterField c.1)
    {node : String → Option String} :
    Matches node (anyOf clauses) ↔ ∃ c ∈ clauses, node c.1 = some c.2 := by
  rw [anyOf, matches_or]
  simp only [List.mem_map, exists_exists_and_eq_and]
  refine exists_congr fun c => and_congr_right fun hc => ?_
  obtain ⟨hand, hor, -⟩ := (hkeys c hc).ne
  exact matches_field hand hor

lemma walks_scopeCondition {field : String} (hfield : FilterField field) (scopes : List String) :
    Walks start (scopeCondition field scopes) := by
  have hall : ∀ c ∈ scopes.map fun scope => (field, scope), FilterField c.1 := by simp [hfield]
  rw [scopeCondition.eq_def]
  split
  · obtain ⟨hand, hor, heq⟩ := hfield.ne
    exact walks_field hand hor heq
  · exact walks_anyOf hall

lemma matches_scopeCondition {field : String} (hfield : FilterField field) {scopes : List String}
    {node : String → Option String} :
    Matches node (scopeCondition field scopes) ↔ ∃ scope ∈ scopes, node field = some scope := by
  have hall : ∀ c ∈ scopes.map fun scope => (field, scope), FilterField c.1 := by simp [hfield]
  rw [scopeCondition.eq_def]
  split
  · obtain ⟨hand, hor, -⟩ := hfield.ne
    simp [matches_field hand hor]
  · simp [matches_anyOf hall]

/-- The properties of a node, as a predicate reads them. -/
def Node.read (node : Node) (key : String) : Option String := Dict.get? key node

lemma denseConditions_walk : ∀ condition ∈ denseConditions host filters, Walks start condition := by
  intro condition hmem
  simp only [denseConditions, List.mem_append] at hmem
  rcases hmem with (hmem | hmem) | hmem
  · split_ifs at hmem
    · rw [List.mem_singleton.mp hmem]
      exact walks_scopeCondition (.inl rfl) _
    · exact absurd hmem List.not_mem_nil
  · split_ifs at hmem
    · rw [List.mem_singleton.mp hmem]
      exact walks_scopeCondition (.inr (.inl rfl)) _
    · exact absurd hmem List.not_mem_nil
  · split_ifs at hmem
    · rw [List.mem_singleton.mp hmem]
      exact walks_anyOf (by simp [FilterField, commitExemptAuthorityNames])
    · exact absurd hmem List.not_mem_nil

lemma Walks.truthy {doc : Json} (hwalks : Walks start doc) : doc.truthy = true := by
  obtain ⟨result, hresult⟩ := hwalks []
  cases doc with
  | obj fields =>
    cases fields with
    | nil => simp [walk, walkFields, bind, Except.bind] at hresult
    | cons kv rest => rfl
  | _ => simp [walk] at hresult

variable (node) in
lemma storeAccepts_walk {doc : Json} {params : Dict Json} (hwalks : Walks 0 doc) (hfresh : Fresh 0 params) :
    ∃ b, storeAccepts doc params node = .ok b ∧ (b = true ↔ Matches node.read doc) := by
  obtain ⟨⟨e, params'⟩, hwalk⟩ := hwalks params
  have htranslates : Translates 0 node.read params params' e (Matches node.read doc) :=
    walk_translates doc hfresh hwalk
  have hmeans := htranslates.means params' (.refl params')
  refine ⟨e.Holds compareText node.read fun name => Dict.get? name params', ?_, ?_⟩
  · rw [storeAccepts, predicate, if_pos hwalks.truthy, hwalk]
    rfl
  · rw [decide_eq_true_eq]
    exact hmeans

variable (host filters node) in
lemma storeAccepts_iff {params : Dict Json} (hfresh : Fresh 0 params) :
    ∃ b, storeAccepts (denseFilter host filters) params node = .ok b ∧
      (b = true ↔ ∀ condition ∈ denseConditions host filters, Matches node.read condition) := by
  have hall : ∀ condition ∈ denseConditions host filters, Walks 0 condition := denseConditions_walk
  rw [denseFilter.eq_def]
  cases hconditions : denseConditions host filters with
  | nil => exact ⟨true, rfl, by simp⟩
  | cons condition rest =>
    rw [hconditions] at hall
    cases rest with
    | nil =>
      obtain ⟨b, hb, hmeans⟩ := storeAccepts_walk node (hall condition (by simp)) hfresh
      exact ⟨b, hb, by simpa using hmeans⟩
    | cons second rest =>
      obtain ⟨b, hb, hmeans⟩ := storeAccepts_walk node (walks_join (.inl rfl) hall) hfresh
      exact ⟨b, hb, hmeans.trans (matches_and (by simp))⟩

/-! ### Unions -/

lemma mem_foldl_insert {scopes union : List String} {scope : String} :
    scope ∈ scopes.foldl (fun union scope => if scope ∈ union then union else union ++ [scope]) union ↔
      scope ∈ union ∨ scope ∈ scopes := by
  induction scopes generalizing union with
  | nil => simp
  | cons first rest ih =>
    rw [List.foldl_cons, ih, List.mem_cons]
    split_ifs with hmem
    · constructor
      · exact fun h => h.imp_right .inr
      · rintro (h | rfl | h)
        · exact .inl h
        · exact .inl hmem
        · exact .inr h
    · rw [List.mem_append, List.mem_singleton, or_assoc]

lemma normalize_trimmed {shared : Json} {scope : String}
    (hscope : scope ∈ normalizeSharedRepositoryIds host shared) :
    strip scope = scope ∧ scope ≠ "" := by
  have hfold : ∀ (items : List Json) (out : List String),
      (∀ s ∈ out, strip s = s ∧ s ≠ "") →
        ∀ s ∈ items.foldl (normalizeItem host) out, strip s = s ∧ s ≠ "" := by
    intro items
    induction items with
    | nil => exact fun out hout => hout
    | cons item rest ih =>
      intro out hout
      apply ih
      simp only [normalizeItem]
      split_ifs with hskip
      · exact hout
      · intro s hs
        rcases List.mem_append.mp hs with hs | hs
        · exact hout s hs
        · rw [List.mem_singleton.mp hs]
          exact ⟨strip_strip _, fun hempty => hskip (.inl hempty)⟩
  exact hfold _ [] (by simp) scope hscope

lemma mem_union {requested scope : String} {shared : Json} :
    scope ∈ repositoryScopeUnion host requested shared ↔
      scope = strip requested ∧ scope ≠ "" ∨ scope ∈ normalizeSharedRepositoryIds host shared := by
  rw [repositoryScopeUnion, mem_foldl_insert]
  refine or_congr ?_ Iff.rfl
  split_ifs with hrequested
  · rw [List.mem_singleton]
    exact ⟨fun h => ⟨h, h ▸ hrequested⟩, And.left⟩
  · simp only [List.not_mem_nil, false_iff, not_and, not_not]
    rintro rfl
    exact not_not.mp hrequested

lemma union_trimmed {requested scope : String} {shared : Json}
    (hscope : scope ∈ repositoryScopeUnion host requested shared) :
    strip scope = scope ∧ scope ≠ "" := by
  rcases mem_union.mp hscope with ⟨rfl, hne⟩ | hshared
  · exact ⟨strip_strip _, hne⟩
  · exact normalize_trimmed hshared

lemma union_eq_nil {requested : String} {shared : Json} :
    repositoryScopeUnion host requested shared = [] ↔
      strip requested = "" ∧ normalizeSharedRepositoryIds host shared = [] := by
  simp only [List.eq_nil_iff_forall_not_mem, mem_union, not_or, not_and, not_not, forall_and]
  refine and_congr_left fun _ => ?_
  exact ⟨fun h => h _ rfl, fun h scope heq => heq.trans h⟩

/-! ### What the gates exclude -/

def Foreign (scopes : List String) (value : Option String) : Prop :=
  scopes ≠ [] ∧ strip (value.getD "") ≠ "" ∧ strip (value.getD "") ∉ scopes

/-- A text that is blank, or one of the scopes but for white space around it. -/
def Blurred (scopes : List String) (value : Option String) : Prop :=
  scopes ≠ [] ∧ (strip (value.getD "") = "" ∨
    strip (value.getD "") ≠ value.getD "" ∧ strip (value.getD "") ∈ scopes)

def Filters.repositories (host : Host) (filters : Filters) : List String :=
  repositoryScopeUnion host filters.repositoryId filters.sharedRepositoryIds

def Filters.acls (host : Host) (filters : Filters) : List String :=
  if strip filters.aclScope = "" then []
  else aclScopeUnion host (strip filters.aclScope) filters.sharedRepositoryIds

lemma scopeExcluded_iff {candidate requested : String} {shared : Json} :
    scopeExcluded host candidate requested shared = true ↔
      Foreign (repositoryScopeUnion host requested shared) (some candidate) := by
  rw [Foreign, ne_eq, union_eq_nil, mem_union]
  simp only [scopeExcluded, Option.getD_some]
  split_ifs with hnone hblank hsame
  · simp [hnone]
  · simp [hblank]
  · simp [hsame]
  · have hother : ¬ (strip candidate = strip requested ∧ strip candidate ≠ "") :=
      fun h => hsame ⟨h.1 ▸ h.2, h.1⟩
    rw [decide_eq_true_eq, or_iff_right hother]
    exact ⟨fun h => ⟨hnone, hblank, h⟩, fun h => h.2.2⟩

lemma aclExcluded_iff {candidate : String} :
    aclExcluded host candidate filters.aclScope filters.sharedRepositoryIds = true ↔
      Foreign (filters.acls host) (some candidate) := by
  rw [aclExcluded, Filters.acls, Foreign]
  by_cases hrequested : strip filters.aclScope = ""
  · simp [hrequested]
  · have hne : aclScopeUnion host (strip filters.aclScope) filters.sharedRepositoryIds ≠ [] := by
      rw [aclScopeUnion, ne_eq, union_eq_nil, strip_strip]
      exact fun h => hrequested h.1
    simp [hrequested, hne]

lemma mem_scopes_iff {scopes : List String} {value : Option String}
    (htrimmed : ∀ s ∈ scopes, strip s = s ∧ s ≠ "") :
    (scopes ≠ [] → ∃ s ∈ scopes, value = some s) ↔
      ¬ Foreign scopes value ∧ ¬ Blurred scopes value := by
  by_cases hscopes : scopes = []
  · simp [hscopes, Foreign, Blurred]
  · simp only [Foreign, Blurred, hscopes, ne_eq, not_false_eq_true, true_and, true_imp_iff]
    constructor
    · rintro ⟨s, hs, rfl⟩
      obtain ⟨htrim, hne⟩ := htrimmed s hs
      simp [htrim, hne, hs]
    · rintro ⟨hforeign, hblurred⟩
      rw [not_or] at hblurred
      have hmem : strip (value.getD "") ∈ scopes := by
        by_contra hmem
        exact hforeign ⟨hblurred.1, hmem⟩
      have htrim : strip (value.getD "") = value.getD "" := by
        by_contra htrim
        exact hblurred.2 ⟨htrim, hmem⟩
      rw [htrim] at hmem
      cases value with
      | none => exact absurd (by simpa using htrim) hblurred.1
      | some s => exact ⟨s, hmem, rfl⟩

/-! ### The commit -/

def authorityOf (host : Host) (node : Node) : Authority :=
  coerceAuthority host (hitMetadata node "authority")

def ForeignCommit (host : Host) (commit : String) (node : Node) : Prop :=
  commit ≠ "" ∧ authorityOf host node = .source ∧ hitMetadata node "commit_sha" ≠ "" ∧
    hitMetadata node "commit_sha" ≠ commit

/-- A record whose authority is not stored under an exempt name, without a commit, or with another
one although it is no code. -/
def BlurredCommit (host : Host) (commit : String) (node : Node) : Prop :=
  commit ≠ "" ∧ (∀ name ∈ commitExemptAuthorityNames, node.read "authority" ≠ some name) ∧
    (node.read "commit_sha" = none ∨
      hitMetadata node "commit_sha" ≠ "" ∧ hitMetadata node "commit_sha" ≠ commit ∧
        authorityOf host node ≠ .source)

lemma commitExcluded_iff {commit : String} :
    commitExcluded (authorityOf host node) (hitMetadata node "commit_sha") commit = true ↔
      ForeignCommit host commit node := by
  simp [commitExcluded, ForeignCommit]

lemma exempt_ne_source (hupper : ∀ name ∈ commitExemptAuthorityNames, host.upper name = name)
    {name : String} (hname : name ∈ commitExemptAuthorityNames)
    (hread : node.read "authority" = some name) : authorityOf host node ≠ .source := by
  have hhit : hitMetadata node "authority" = name := by
    rw [hitMetadata]
    exact congrArg (·.getD "") hread
  rw [authorityOf, hhit, coerceAuthority, hupper name hname]
  simp only [commitExemptAuthorityNames, List.mem_cons, List.not_mem_nil, or_false] at hname
  rcases hname with rfl | rfl | rfl <;> decide

lemma commit_iff (hupper : ∀ name ∈ commitExemptAuthorityNames, host.upper name = name)
    {commit : String} (hcommit : commit ≠ "") :
    (node.read "commit_sha" = some "" ∨ node.read "commit_sha" = some commit ∨
        ∃ name ∈ commitExemptAuthorityNames, node.read "authority" = some name) ↔
      ¬ ForeignCommit host commit node ∧ ¬ BlurredCommit host commit node := by
  by_cases hexempt : ∃ name ∈ commitExemptAuthorityNames, node.read "authority" = some name
  · obtain ⟨name, hname, hread⟩ := hexempt
    have hsource := exempt_ne_source hupper hname hread
    refine iff_of_true (.inr (.inr ⟨name, hname, hread⟩)) ⟨fun h => hsource h.2.1, fun h => ?_⟩
    exact h.2.1 name hname hread
  · have hnames : ∀ name ∈ commitExemptAuthorityNames, node.read "authority" ≠ some name := by
      push Not at hexempt
      exact hexempt
    rw [ForeignCommit, BlurredCommit, or_iff_left hexempt]
    cases hread : node.read "commit_sha" with
    | none => exact iff_of_false (by simp) fun h => h.2 ⟨hcommit, hnames, .inl rfl⟩
    | some sha =>
      have hhit : hitMetadata node "commit_sha" = sha := by
        rw [hitMetadata]
        exact congrArg (·.getD "") hread
      rw [hhit]
      by_cases hempty : sha = ""
      · simp [hempty]
      · by_cases hsame : sha = commit
        · simp [hsame]
        · refine iff_of_false (by simp [hempty, hsame]) fun h => ?_
          by_cases hsource : authorityOf host node = .source
          · exact h.1 ⟨hcommit, hsource, hempty, hsame⟩
          · exact h.2 ⟨hcommit, hnames, .inr ⟨hempty, hsame, hsource⟩⟩

/-! ### The two filters -/

/-- A property that is asked for is one the store cannot tell. -/
def Blurs (host : Host) (filters : Filters) (node : Node) : Prop :=
  Blurred (filters.repositories host) (node.read "repository_id") ∨
    Blurred (filters.acls host) (node.read "acl_scope") ∨ BlurredCommit host filters.commitSha node

/-- A property is outside of what is asked for. -/
def Outside (host : Host) (filters : Filters) (node : Node) : Prop :=
  Foreign (filters.repositories host) (node.read "repository_id") ∨
    Foreign (filters.acls host) (node.read "acl_scope") ∨ ForeignCommit host filters.commitSha node

lemma gatesAllow_iff :
    gatesAllow host filters (hitMetadata node) = true ↔ ¬ Outside host filters node := by
  have hsome (scopes : List String) (key : String) :
      Foreign scopes (some (hitMetadata node key)) ↔ Foreign scopes (node.read key) := Iff.rfl
  rw [Outside, ← hsome, ← hsome, Filters.repositories, ← scopeExcluded_iff, ← aclExcluded_iff,
    ← commitExcluded_iff, gatesAllow, authorityOf]
  simp only [Bool.and_eq_true, Bool.not_eq_true', Bool.not_eq_true, not_or, and_assoc]

lemma conditions_iff (hupper : ∀ name ∈ commitExemptAuthorityNames, host.upper name = name) :
    (∀ condition ∈ denseConditions host filters, Matches node.read condition) ↔
      ¬ Outside host filters node ∧ ¬ Blurs host filters node := by
  have hwhen (p : Prop) [Decidable p] (doc : Json) :
      (∀ c ∈ (if p then [doc] else []), Matches node.read c) ↔ (p → Matches node.read doc) := by
    split_ifs with hp <;> simp [hp]
  have hrepositories : (filters.repositories host ≠ [] → ∃ s ∈ filters.repositories host,
      node.read "repository_id" = some s) ↔ _ :=
    mem_scopes_iff fun s hs => union_trimmed hs
  have hacls : (strip filters.aclScope ≠ "" →
      ∃ s ∈ aclScopeUnion host (strip filters.aclScope) filters.sharedRepositoryIds,
        node.read "acl_scope" = some s) ↔
      ¬ Foreign (filters.acls host) (node.read "acl_scope") ∧
        ¬ Blurred (filters.acls host) (node.read "acl_scope") := by
    rw [Filters.acls]
    split_ifs with hrequested
    · simp [hrequested, Foreign, Blurred]
    · have hne : aclScopeUnion host (strip filters.aclScope) filters.sharedRepositoryIds ≠ [] := by
        rw [aclScopeUnion, ne_eq, union_eq_nil, strip_strip]
        exact fun h => hrequested h.1
      refine Iff.trans ?_ (mem_scopes_iff fun s hs => union_trimmed hs)
      exact ⟨fun h _ => h hrequested, fun h _ => h hne⟩
  have hcommit : (filters.commitSha ≠ "" →
      Matches node.read (anyOf ([("commit_sha", ""), ("commit_sha", filters.commitSha)] ++
        commitExemptAuthorityNames.map fun name => ("authority", name)))) ↔
      ¬ ForeignCommit host filters.commitSha node ∧ ¬ BlurredCommit host filters.commitSha node := by
    by_cases hcommit : filters.commitSha = ""
    · simp [hcommit, ForeignCommit, BlurredCommit]
    · rw [← commit_iff hupper hcommit, matches_anyOf (by simp [FilterField, commitExemptAuthorityNames])]
      simp [hcommit]
  rw [denseConditions, List.forall_mem_append, List.forall_mem_append, hwhen, hwhen, hwhen,
    matches_scopeCondition (.inl rfl), matches_scopeCondition (.inr (.inl rfl)), hcommit, hacls]
  rw [Outside, Blurs, not_or, not_or, not_or, not_or]
  refine (and_congr_left' (and_congr_left' hrepositories)).trans ?_
  constructor
  · rintro ⟨⟨⟨hforeign₁, hblurred₁⟩, hforeign₂, hblurred₂⟩, hforeign₃, hblurred₃⟩
    exact ⟨⟨hforeign₁, hforeign₂, hforeign₃⟩, hblurred₁, hblurred₂, hblurred₃⟩
  · rintro ⟨⟨hforeign₁, hforeign₂, hforeign₃⟩, hblurred₁, hblurred₂, hblurred₃⟩
    exact ⟨⟨⟨hforeign₁, hblurred₁⟩, hforeign₂, hblurred₂⟩, hforeign₃, hblurred₃⟩

lemma searchParams_fresh {vector : List PyFloat} {limit : ℤ} : Fresh 0 (searchParams vector limit) := by
  intro n _
  refine Dict.get?_eq_none.mpr fun kv hkv heq => ?_
  have hhead : kv.1.toList.head? = some 'p' := by
    rw [heq]
    simp
  simp only [searchParams, List.mem_cons, List.not_mem_nil, or_false] at hkv
  rcases hkv with rfl | rfl | rfl <;> simp at hhead

end Filter

/-- The store's filter and the gates give one answer about a node exactly when no property that is
asked for is one the store cannot tell, or some property is outside of what is asked for. -/
theorem store_filter_agrees_iff (host : Host) (filters : Filters) (metadata : Dict String)
    (node : Node) (vector : List PyFloat) (limit : ℤ)
    (hupper : ∀ name ∈ commitExemptAuthorityNames, host.upper name = name) :
    storeAccepts (denseFilter host filters) (searchParams vector limit) (upsert metadata node) =
        .ok (gatesAllow host filters (hitMetadata (upsert metadata node))) ↔
      (Blurs host filters (upsert metadata node) → Outside host filters (upsert metadata node)) := by
  have hfresh : Fresh 0 (searchParams vector limit) := searchParams_fresh
  obtain ⟨b, hb, hiff⟩ := storeAccepts_iff host filters (upsert metadata node) hfresh
  rw [conditions_iff hupper] at hiff
  rw [hb, Except.ok.injEq, Bool.eq_iff_iff, hiff, gatesAllow_iff]
  constructor
  · intro hsame hblurs
    by_contra houtside
    exact (hsame.mpr houtside).2 hblurs
  · intro hblurs
    exact ⟨And.left, fun houtside => ⟨houtside, fun h => houtside (hblurs h)⟩⟩

/-! ### Two records -/

/-- Case maps of Unicode, and nothing else. -/
def caseHost : Host where
  loads _ := .ok .null
  repr _ := ""
  upper := String.toUpper
  lower := String.toLower
  sha256 := id
  dumps _ := ""
  fromisoformat _ := none

def cellFilters : Filters := { repositoryId := "cell-a" }

def measuredMetadata (repositoryId : String) : Dict String :=
  [("repository_id", repositoryId), ("authority", "MEASURED")]

/-- A record of the cell itself. -/
theorem store_filter_agrees_own_cell :
    storeAccepts (denseFilter caseHost cellFilters) (searchParams [] 40)
        (upsert (measuredMetadata "cell-a") []) =
      .ok (gatesAllow caseHost cellFilters (hitMetadata (upsert (measuredMetadata "cell-a") []))) := by
  refine (store_filter_agrees_iff caseHost cellFilters (measuredMetadata "cell-a") [] [] 40 ?_).mpr ?_
  · decide +kernel
  · rintro (⟨-, hblank | ⟨htrim, -⟩⟩ | ⟨hasked, -⟩ | ⟨hasked, -⟩)
    · exact absurd hblank (by decide +kernel)
    · exact absurd (by decide +kernel) htrim
    · exact absurd (by decide +kernel) hasked
    · exact absurd rfl hasked

/-- A record without a repository passes the gates, and the store does not find it. -/
theorem unscoped_record_refused :
    storeAccepts (denseFilter caseHost cellFilters) (searchParams [] 40)
        (upsert (measuredMetadata "") []) ≠
      .ok (gatesAllow caseHost cellFilters (hitMetadata (upsert (measuredMetadata "") []))) := by
  have hstore : (storeAccepts (denseFilter caseHost cellFilters) (searchParams [] 40)
      (upsert (measuredMetadata "") [])).toOption = some false := by
    decide +kernel
  have hgates : gatesAllow caseHost cellFilters (hitMetadata (upsert (measuredMetadata "") [])) =
      true := by
    decide +kernel
  intro hsame
  rw [hsame, hgates] at hstore
  exact absurd hstore (by decide)

end AgenticDynamics.Knowledge.Retrieval
