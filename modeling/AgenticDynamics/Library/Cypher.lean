import Mathlib.Tactic

/-!
# Predicates over the properties of a node

A predicate of a graph query compares properties with parameters and combines the answers in
three-valued logic: a property that is missing is null, and what compares with null is null. A
query keeps the rows on which its predicate is true.

A predicate is written together with the parameters that it names; it keeps its meaning when
parameters are added under other names.
-/

namespace Cypher

/-! ### Three-valued logic -/

/-- `a AND b`; none stands for null. -/
def conj : Option Bool → Option Bool → Option Bool
  | some false, _         => some false
  | _, some false         => some false
  | some true, some true  => some true
  | _, _                  => none

/-- `a OR b`. -/
def disj : Option Bool → Option Bool → Option Bool
  | some true, _          => some true
  | _, some true          => some true
  | some false, some false => some false
  | _, _                  => none

@[simp] lemma conj_eq_true {a b : Option Bool} :
    conj a b = some true ↔ a = some true ∧ b = some true := by
  rcases a with _ | _ | _ <;> rcases b with _ | _ | _ <;> simp [conj]

@[simp] lemma disj_eq_true {a b : Option Bool} :
    disj a b = some true ↔ a = some true ∨ b = some true := by
  rcases a with _ | _ | _ <;> rcases b with _ | _ | _ <;> simp [disj]

/-! ### Predicates -/

inductive Expr
  /-- `node.property = $param` -/
  | equals (property param : String)
  /-- `(a AND b)` -/
  | all (clauses : List Expr)
  /-- `(a OR b)` -/
  | any (clauses : List Expr)

section Semantics

variable {V W : Type} (compare : V → W → Option Bool) (node : String → Option V)
  (params : String → Option W)

mutual

/-- The value of a predicate on a node; `()` is no predicate. -/
def Expr.eval : Expr → Option Bool
  | .equals property param =>
    match node property, params param with
    | some v, some w => compare v w
    | _, _           => none
  | .all clauses => if clauses.isEmpty then none else evalAll clauses
  | .any clauses => if clauses.isEmpty then none else evalAny clauses

def evalAll : List Expr → Option Bool
  | []              => some true
  | clause :: rest => conj clause.eval (evalAll rest)

def evalAny : List Expr → Option Bool
  | []              => some false
  | clause :: rest => disj clause.eval (evalAny rest)

end

def Expr.Holds (e : Expr) : Prop := e.eval compare node params = some true

instance (e : Expr) : Decidable (e.Holds compare node params) :=
  inferInstanceAs (Decidable (_ = _))

end Semantics

section Rules

variable {V W : Type} {compare : V → W → Option Bool} {node : String → Option V}
  {params : String → Option W}

lemma holds_equals {property param : String} : (Expr.equals property param).Holds compare node params ↔
    ∃ v w, node property = some v ∧ params param = some w ∧ compare v w = some true := by
  rw [Expr.Holds, Expr.eval]
  cases node property <;> cases params param <;> simp

lemma holds_all {clauses : List Expr} : (Expr.all clauses).Holds compare node params ↔
    clauses ≠ [] ∧ ∀ e ∈ clauses, e.Holds compare node params := by
  have hall : evalAll compare node params clauses = some true ↔
      ∀ e ∈ clauses, e.Holds compare node params := by
    induction clauses with
    | nil => simp [evalAll]
    | cons clause rest ih =>
      rw [evalAll, conj_eq_true, ih, List.forall_mem_cons]
      rfl
  rw [Expr.Holds, Expr.eval]
  cases clauses with
  | nil => simp
  | cons clause rest => simpa using hall

lemma holds_any {clauses : List Expr} : (Expr.any clauses).Holds compare node params ↔
    ∃ e ∈ clauses, e.Holds compare node params := by
  have hany : evalAny compare node params clauses = some true ↔
      ∃ e ∈ clauses, e.Holds compare node params := by
    induction clauses with
    | nil => simp [evalAny]
    | cons clause rest ih =>
      rw [evalAny, disj_eq_true, ih, List.exists_mem_cons_iff]
      rfl
  rw [Expr.Holds, Expr.eval]
  cases clauses with
  | nil => simp
  | cons clause rest => simpa using hany

end Rules

end Cypher
