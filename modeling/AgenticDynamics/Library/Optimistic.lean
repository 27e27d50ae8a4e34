import Mathlib.Tactic

/-!
# Optimistic reads

A shared cell counts its visible writes. A client remembers the count and the value it read, and
later writes only if the count is still the one it remembers. Besides the counted writes, the
store may lose part of a value without counting it; what a value can turn into that way is the
relation `loses`.
-/

namespace Optimistic

variable {α : Type}

/-- A value and the number of counted writes behind it. -/
structure Cell (α : Type) where
  value : α
  version : ℕ

namespace Cell

def write (c : Cell α) (v : α) : Cell α := ⟨v, c.version + 1⟩

def lose (c : Cell α) (v : α) : Cell α := ⟨v, c.version⟩

@[simp] lemma write_value (c : Cell α) (v : α) : (c.write v).value = v := rfl

@[simp] lemma write_version (c : Cell α) (v : α) : (c.write v).version = c.version + 1 := rfl

@[simp] lemma lose_value (c : Cell α) (v : α) : (c.lose v).value = v := rfl

@[simp] lemma lose_version (c : Cell α) (v : α) : (c.lose v).version = c.version := rfl

end Cell

/-- A client that remembers `version` and has read `value` since: as long as no write is counted
the cell holds what is left of that value. -/
structure Agrees (loses : α → α → Prop) (version : ℕ) (value : α) (c : Cell α) : Prop where
  past : version ≤ c.version
  still : version = c.version → loses value c.value

namespace Agrees

variable {loses : α → α → Prop} {version : ℕ} {value : α} {c : Cell α}

lemma read [Std.Refl loses] (h : version ≤ c.version) : Agrees loses version c.value c :=
  ⟨h, fun _ => Std.Refl.refl _⟩

lemma write (h : Agrees loses version value c) (v : α) : Agrees loses version value (c.write v) := by
  constructor
  · have := h.past
    simp only [Cell.write_version]
    omega
  · intro heq
    have := h.past
    simp only [Cell.write_version] at heq
    omega

lemma lose [IsTrans α loses] (h : Agrees loses version value c) {v : α} (hv : loses c.value v) :
    Agrees loses version value (c.lose v) := by
  constructor
  · exact h.past
  · intro heq
    exact IsTrans.trans _ _ _ (h.still heq) hv

end Agrees

end Optimistic
