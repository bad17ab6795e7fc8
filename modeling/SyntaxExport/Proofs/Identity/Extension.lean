import SyntaxExport.Identity.Table

/-!
# Numberings that go on

Giving numbers to more identities changes no number that was given, so the text of an identity stays
what it was when it was written.
-/

namespace SyntaxExport.IdentityTable

/-- Every number of one table is the same in the other. -/
def Extends (t t' : IdentityTable) : Prop :=
  ∀ i n, t.get? i = some n → t'.get? i = some n

variable {t t' t'' : IdentityTable}

theorem Extends.refl (t : IdentityTable) : t.Extends t :=
  fun _ _ h => h

theorem Extends.trans (h : t.Extends t') (h' : t'.Extends t'') : t.Extends t'' :=
  fun i n hn => h' i n (h i n hn)

theorem get?_intern (t : IdentityTable) (i : NodeIdentity) :
    (t.intern i).2.get? i = some (t.intern i).1 := by
  unfold intern
  split
  · next h => exact h
  · exact Std.HashMap.getElem?_insert_self

/-! ### The next number -/

theorem intern_of_some {i : NodeIdentity} {n : Nat} (h : t.get? i = some n) :
    t.intern i = (n, t) := by
  rw [intern, h]

section

variable {i : NodeIdentity} (h : t.get? i = none)

include h

/-- An identity that a table has not seen gets the next number. -/
theorem intern_of_none : t.intern i
    = (min t.size (UInt32.size - 1), ⟨t.numbers.insert i (min t.size (UInt32.size - 1))⟩) := by
  rw [intern, h]

theorem fst_intern_of_none : (t.intern i).1 = min t.size (UInt32.size - 1) := by
  rw [intern_of_none h]

theorem size_intern_of_none : (t.intern i).2.size = t.size + 1 := by
  have habsent : i ∉ t.numbers := by
    intro hmem
    rw [get?, Std.HashMap.getElem?_eq_some_getElem hmem] at h
    cases h
  rw [intern_of_none h, size, Std.HashMap.size_insert, if_neg habsent]
  rfl

theorem get?_intern_of_none (j : NodeIdentity) : (t.intern i).2.get? j
    = if i = j then some (min t.size (UInt32.size - 1)) else t.get? j := by
  rw [intern_of_none h, get?, Std.HashMap.getElem?_insert]
  by_cases hj : i = j
  · rw [if_pos hj, if_pos (beq_iff_eq.mpr hj)]
  · rw [if_neg hj, if_neg (fun heq => hj (beq_iff_eq.mp heq))]
    rfl

end

/-! ### Later tables -/

theorem extends_intern (t : IdentityTable) (i : NodeIdentity) : t.Extends (t.intern i).2 := by
  intro j n hj
  cases hi : t.get? i with
  | some k =>
    rw [intern_of_some hi]
    exact hj
  | none =>
    have hne : i ≠ j := by
      rintro rfl
      rw [hi] at hj
      cases hj
    rw [get?_intern_of_none hi, if_neg hne]
    exact hj

theorem extends_render (t : IdentityTable) (mode : IdentityMode) (i : NodeIdentity) :
    t.Extends (t.render mode i).2 := by
  cases mode with
  | raw => exact Extends.refl t
  | anonymized => exact extends_intern t i

/-- The text that a table has for an identity, in every later table. -/
theorem render_of_extends {mode : IdentityMode} {i : NodeIdentity}
    (h : (t.render mode i).2.Extends t') : (t'.render mode i).1 = (t.render mode i).1 := by
  cases mode with
  | raw => rfl
  | anonymized =>
    have hi : t'.get? i = some (t.intern i).1 := h i _ (get?_intern t i)
    simp only [render, intern_of_some hi]

end SyntaxExport.IdentityTable
