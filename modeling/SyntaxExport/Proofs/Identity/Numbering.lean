import Mathlib.Data.List.Basic
import Mathlib.Data.List.Induction
import Mathlib.Data.List.Nodup
import Mathlib.Data.Set.Function
import SyntaxExport.Proofs.Identity.Extension

/-!
# Numbers by first appearance

The number of an identity is its index among the identities that were given numbers, in the order of
their first appearance (`IdentityTable.Numbers`), up to the last number that there is.
-/

namespace SyntaxExport

/-! ### First appearances -/

section Appearances

variable {α : Type} [BEq α] [LawfulBEq α]

theorem eraseDups_concat_of_mem {as : List α} {a : α} (h : a ∈ as) :
    (as ++ [a]).eraseDups = as.eraseDups := by
  simp [List.eraseDups_append, List.removeAll, h]

theorem eraseDups_concat_of_notMem {as : List α} {a : α} (h : a ∉ as) :
    (as ++ [a]).eraseDups = as.eraseDups ++ [a] := by
  simp [List.eraseDups_append, List.removeAll, h, List.eraseDups_cons]

theorem nodup_eraseDups (as : List α) : as.eraseDups.Nodup := by
  induction as using List.reverseRecOn with
  | nil => exact List.nodup_nil
  | append_singleton as a ih =>
    by_cases h : a ∈ as
    · rw [eraseDups_concat_of_mem h]
      exact ih
    · rw [eraseDups_concat_of_notMem h, ← List.concat_eq_append]
      exact ih.concat fun ha => h (List.mem_eraseDups.mp ha)

/-- An injective renaming keeps the order of first appearance. -/
theorem eraseDups_map {β : Type} [BEq β] [LawfulBEq β] {f : α → β} (hf : Function.Injective f)
    (as : List α) : (as.map f).eraseDups = as.eraseDups.map f := by
  induction as using List.reverseRecOn with
  | nil => rfl
  | append_singleton as a ih =>
    rw [List.map_append, List.map_singleton]
    by_cases h : a ∈ as
    · rw [eraseDups_concat_of_mem h, eraseDups_concat_of_mem (List.mem_map_of_mem h), ih]
    · have hfa : f a ∉ as.map f := by
        rintro hmem
        obtain ⟨b, hb, hab⟩ := List.mem_map.mp hmem
        exact h (hf hab ▸ hb)
      rw [eraseDups_concat_of_notMem h, eraseDups_concat_of_notMem hfa, ih, List.map_append]
      rfl

/-- An injective renaming keeps indices. -/
theorem idxOf_map {β : Type} [BEq β] [LawfulBEq β] {f : α → β} (hf : Function.Injective f) (a : α)
    (as : List α) : (as.map f).idxOf (f a) = as.idxOf a := by
  induction as with
  | nil => rfl
  | cons b as ih =>
    rw [List.map_cons]
    by_cases h : b = a
    · subst h
      rw [List.idxOf_cons_self, List.idxOf_cons_self]
    · have hf' : f b ≠ f a := fun heq => h (hf heq)
      rw [List.idxOf_cons_ne _ h, List.idxOf_cons_ne _ hf', ih]

/-- The indices of first appearance are all those below the number of different elements. -/
theorem eraseDups_map_idxOf (as : List α) :
    (as.map as.eraseDups.idxOf).eraseDups = List.range as.eraseDups.length := by
  induction as using List.reverseRecOn with
  | nil => rfl
  | append_singleton as a ih =>
    by_cases h : a ∈ as
    · have hindex : as.eraseDups.idxOf a ∈ as.map as.eraseDups.idxOf := List.mem_map_of_mem h
      rw [eraseDups_concat_of_mem h, List.map_append, List.map_singleton,
        eraseDups_concat_of_mem hindex, ih]
    · have hnew : a ∉ as.eraseDups := fun ha => h (List.mem_eraseDups.mp ha)
      have hlast : (as.eraseDups ++ [a]).idxOf a = as.eraseDups.length := by
        rw [List.idxOf_append_of_notMem hnew, List.idxOf_cons_self, Nat.add_zero]
      -- the elements before the last keep their indices
      have hinit : as.map (as.eraseDups ++ [a]).idxOf = as.map as.eraseDups.idxOf := by
        refine List.map_congr_left fun b hb => ?_
        exact List.idxOf_append_of_mem (List.mem_eraseDups.mpr hb)
      have hindex : as.eraseDups.length ∉ as.map as.eraseDups.idxOf := by
        intro hmem
        obtain ⟨b, hb, hlength⟩ := List.mem_map.mp hmem
        have hlt := List.idxOf_lt_length_of_mem (List.mem_eraseDups.mpr hb)
        omega
      rw [eraseDups_concat_of_notMem h, List.map_append, List.map_singleton, hinit, hlast,
        eraseDups_concat_of_notMem hindex, ih, List.length_append, List.length_singleton,
        List.range_succ]

end Appearances

/-- Different numbers have different decimal texts. -/
theorem toString_injective : Function.Injective (toString : Nat → String) := by
  intro n m h
  have hdigits : Nat.toDigits 10 n = Nat.toDigits 10 m := String.ofList_injective h
  have hvalue := congrArg (Nat.ofDigitChars 10 · 0) hdigits
  simpa only [Nat.ofDigitChars_toDigits (by omega : 1 < 10) (by omega : 10 ≤ 10)] using hvalue

namespace IdentityTable

/-- The numbers of a table are those of a list of identities, by first appearance. -/
structure Numbers (t : IdentityTable) (is : List NodeIdentity) : Prop where
  size : t.size = is.eraseDups.length
  get? : ∀ i, t.get? i
    = if i ∈ is then some (min (is.eraseDups.idxOf i) (UInt32.size - 1)) else none

variable {t : IdentityTable} {is : List NodeIdentity}

theorem numbers_empty : empty.Numbers [] where
  size := rfl
  get? i := by simp [get?, empty]

/-- A number is given to an identity as to the last of those that have one. -/
theorem Numbers.intern (h : t.Numbers is) (i : NodeIdentity) :
    (t.intern i).2.Numbers (is ++ [i]) := by
  by_cases hi : i ∈ is
  · have hsome := h.get? i
    rw [if_pos hi] at hsome
    rw [intern_of_some hsome]
    refine ⟨by rw [h.size, eraseDups_concat_of_mem hi], fun j => ?_⟩
    have hmem : j ∈ is ++ [i] ↔ j ∈ is := by
      simp only [List.mem_append, List.mem_singleton, or_iff_left_iff_imp]
      rintro rfl
      exact hi
    rw [h.get?, eraseDups_concat_of_mem hi, if_congr hmem rfl rfl]
  · have hnone := h.get? i
    rw [if_neg hi] at hnone
    have hfirst : i ∉ is.eraseDups := fun hmem => hi (List.mem_eraseDups.mp hmem)
    refine ⟨?_, fun j => ?_⟩
    · rw [size_intern_of_none hnone, eraseDups_concat_of_notMem hi, List.length_append,
        List.length_singleton, h.size]
    · rw [get?_intern_of_none hnone, eraseDups_concat_of_notMem hi]
      by_cases hj : i = j
      · have hindex : (is.eraseDups ++ [j]).idxOf j = t.size := by
          rw [List.idxOf_append_of_notMem (hj ▸ hfirst), List.idxOf_cons_self, Nat.add_zero, h.size]
        subst hj
        rw [if_pos rfl, if_pos (by simp), hindex]
      · have hmem : j ∈ is ++ [i] ↔ j ∈ is := by
          simp only [List.mem_append, List.mem_singleton, or_iff_left_iff_imp]
          rintro rfl
          exact absurd rfl hj
        rw [if_neg hj, h.get?, if_congr hmem rfl rfl]
        by_cases hjs : j ∈ is
        · rw [if_pos hjs, if_pos hjs, List.idxOf_append_of_mem (List.mem_eraseDups.mpr hjs)]
        · rw [if_neg hjs, if_neg hjs]

/-- The number that is written for an identity. -/
theorem Numbers.fst_intern (h : t.Numbers is) {i : NodeIdentity} (hi : i ∈ is) :
    t.intern i = (min (is.eraseDups.idxOf i) (UInt32.size - 1), t) := by
  have hsome := h.get? i
  rw [if_pos hi] at hsome
  exact intern_of_some hsome

/-! ### Few identities -/

section Few

variable (h : t.Numbers is) (hfew : t.size ≤ UInt32.size)

include h hfew

/-- As long as there are numbers for all identities, the number of one is its place. -/
theorem Numbers.get?_eq_some {i : NodeIdentity} {n : Nat} :
    t.get? i = some n ↔ is.eraseDups[n]? = some i := by
  rw [h.get?]
  constructor
  · intro hn
    split at hn
    · next hi =>
      have hlt := List.idxOf_lt_length_of_mem (List.mem_eraseDups.mpr hi)
      have hsize := h.size
      have hmin : min (is.eraseDups.idxOf i) (UInt32.size - 1) = is.eraseDups.idxOf i := by omega
      rw [hmin] at hn
      obtain rfl := Option.some.inj hn
      rw [List.getElem?_eq_getElem hlt, List.getElem_idxOf]
    · cases hn
  · intro hn
    obtain ⟨hlt, hi⟩ := List.getElem?_eq_some_iff.mp hn
    have hmem : i ∈ is := List.mem_eraseDups.mp (hi ▸ List.getElem_mem hlt)
    have hplace : is.eraseDups.idxOf i = n := by
      rw [← hi]
      exact (nodup_eraseDups is).idxOf_getElem n hlt
    have hsize := h.size
    have hmin : min n (UInt32.size - 1) = n := by omega
    rw [if_pos hmem, hplace, hmin]

theorem Numbers.exists_number {i : NodeIdentity} (hi : i ∈ is) :
    ∃ n < t.size, t.get? i = some n := by
  obtain ⟨n, hlt, hn⟩ := List.getElem_of_mem (List.mem_eraseDups.mpr hi)
  exact ⟨n, h.size ▸ hlt,
    (h.get?_eq_some hfew).mpr (List.getElem?_eq_some_iff.mpr ⟨hlt, hn⟩)⟩

/-- The table is a bijection between the identities and the numbers below its size. -/
theorem Numbers.bijOn : Set.BijOn t.get? {i | i ∈ is} (some '' {n | n < t.size}) := by
  refine ⟨?_, ?_, ?_⟩
  · intro i hi
    obtain ⟨n, hlt, hn⟩ := h.exists_number hfew hi
    exact ⟨n, hlt, hn.symm⟩
  · intro i hi j _ hij
    obtain ⟨n, -, hn⟩ := h.exists_number hfew hi
    have hplace := (h.get?_eq_some hfew).mp hn
    have hplace' := (h.get?_eq_some hfew).mp (hij.symm.trans hn)
    exact Option.some.inj (hplace.symm.trans hplace')
  · rintro _ ⟨n, hn, rfl⟩
    have hlt : n < is.eraseDups.length := h.size ▸ hn
    refine ⟨is.eraseDups[n], List.mem_eraseDups.mp (List.getElem_mem hlt), ?_⟩
    exact (h.get?_eq_some hfew).mpr (List.getElem?_eq_getElem hlt)

end Few

end IdentityTable

end SyntaxExport
