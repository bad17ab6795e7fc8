import SyntaxExport.Proofs.Identity.Text
import SyntaxExport.Proofs.Index
import SyntaxExport.Proofs.Series

/-!
# Numbers name no nodes

An index reads the texts that it is asked for as hexadecimal words, also those that are decimal numbers.
The numbers of a table have 32 bits, whatever was written before, so they have ten digits at most. Read
as a word, a text of that length stays below 16 ^ 10 = 2 ^ 40, where the words of nodes begin. So no text
that stands for an identity in a document with numbered identities is found in an index, be it of the same
translation unit or of another one (`Index.numbers_unresolved`).
-/

namespace SyntaxExport

/-! ### Short texts -/

/-- The words of nodes leave the lower 40 bits to the index. -/
theorem NodeRef.le_toNat_identity {n : NodeRef} (h : n ≠ .null) :
    2 ^ 40 ≤ n.identity.raw.toNat := by
  have hrank : 1 ≤ n.rank := by
    cases n <;> first | exact absurd rfl h | simp [rank]
  rw [toNat_identity]
  omega

/-- A text of ten characters is no text of a node. -/
theorem NodeIdentity.parse_ne_of_length_le {s : String} {n : NodeRef} (hs : s.length ≤ 10)
    (hn : n ≠ .null) : parse s ≠ .ok n.identity := by
  intro hparse
  have hlt := (parse_eq_ok_iff.mp hparse).lt
  have hpow : 16 ^ s.length ≤ 16 ^ 10 := Nat.pow_le_pow_right (by decide) hs
  have hle := NodeRef.le_toNat_identity hn
  omega

/-- The text names no node of the index. -/
def Index.Unresolved (x : Index) (s : String) : Prop :=
  x.declOfText? s = none ∧ x.stmtOfText? s = none ∧ x.typeOfText? s = none

theorem Index.unresolved_of_length_le {ctx : Context} {root : DeclId} {x y : Index}
    (h : build ctx root x = .ok y) {s : String} (hs : s.length ≤ 10) : y.Unresolved s := by
  refine ⟨?_, ?_, ?_⟩
  · refine Option.eq_none_iff_forall_ne_some.mpr fun d hd => ?_
    exact absurd ((declOfText?_iff h s d).mp hd).1 (NodeIdentity.parse_ne_of_length_le hs nofun)
  · refine Option.eq_none_iff_forall_ne_some.mpr fun id hid => ?_
    exact absurd ((stmtOfText?_iff h s id).mp hid).1 (NodeIdentity.parse_ne_of_length_le hs nofun)
  · refine Option.eq_none_iff_forall_ne_some.mpr fun t ht => ?_
    exact absurd ((typeOfText?_iff h s t).mp ht).1 (NodeIdentity.parse_ne_of_length_le hs nofun)

/-- A number of 32 bits has ten digits at most. -/
theorem length_toString_le {n : Nat} (h : n < UInt32.size) : (toString n).length ≤ 10 := by
  have hlength : (toString n).length = (Nat.toDigits 10 n).length := String.length_ofList
  rw [hlength, Nat.length_toDigits_le_iff (by decide) (by decide)]
  exact Nat.lt_trans h (by decide)

/-! ### The numbers of a table -/

namespace IdentityTable

/-- Every number of a table has 32 bits. -/
def Fits (t : IdentityTable) : Prop :=
  ∀ i n, t.get? i = some n → n < UInt32.size

variable {t : IdentityTable}

theorem fits_empty : empty.Fits := by
  intro i n h
  simp [get?, empty] at h

/-- A full table gives its last number again. -/
theorem Fits.intern (h : t.Fits) (i : NodeIdentity) :
    (t.intern i).1 < UInt32.size ∧ (t.intern i).2.Fits := by
  cases hi : t.get? i with
  | some n =>
    rw [intern_of_some hi]
    exact ⟨h i n hi, h⟩
  | none =>
    have hnext : min t.size (UInt32.size - 1) < UInt32.size := by
      have hpos : 0 < UInt32.size := by decide
      omega
    refine ⟨(fst_intern_of_none hi).symm ▸ hnext, fun j n hj => ?_⟩
    rw [get?_intern_of_none hi] at hj
    split at hj
    · exact Option.some.inj hj ▸ hnext
    · exact h j n hj

theorem Fits.render (h : t.Fits) (mode : IdentityMode) (i : NodeIdentity) : (t.render mode i).2.Fits := by
  cases mode with
  | raw => exact h
  | anonymized => exact (h.intern i).2

theorem Fits.renderAll {mode : IdentityMode} : ∀ {ns : List NodeRef} {t : IdentityTable},
    t.Fits → (t.renderAll mode ns).Fits
  | [], _, h => h
  | n :: _, _, h => (h.render mode n.identity).renderAll

theorem Fits.exists_text (h : t.Fits) (n : NodeRef) :
    ∃ k < UInt32.size, t.text .anonymized n = toString k :=
  ⟨_, (h.intern n.identity).1, rfl⟩

end IdentityTable

/-! ### What documents write -/

/-- The text that is written in the place of an identity. -/
def Entry.identityText? : Entry → Event → Option String
  | .identity _, .scalar (.string text) => some text
  | _, _ => none

/-- The texts that a document writes in the places of identities, also when it breaks off. -/
def Export.identityTexts (e : Export) (s : Session) : List String :=
  ((e.entries s).zip (e.events s)).filterMap fun p => p.1.identityText? p.2

/-- A document has one text for each identity, from the table that it leaves. -/
theorem Export.identityTexts_eq (e : Export) (s : Session) : e.identityTexts s
    = (Entry.nodes (e.entries s)).map ((e.after s).identities.text e.opts.identityMode) := by
  have htext : ∀ (text : NodeRef → String) (es : List Entry),
      ((es.zip (es.map (Entry.toEvent text))).filterMap fun p => p.1.identityText? p.2)
        = (Entry.nodes es).map text := by
    intro text es
    induction es with
    | nil => rfl
    | cons entry es ih =>
      cases entry with
      | event e => exact ih
      | identity n => exact congrArg (text n :: ·) ih
  rw [identityTexts, (e.handed s).2.1]
  exact htext _ _

namespace Session

theorem fits_perform {s : Session} (h : s.identities.Fits) (op : Operation) :
    (s.perform op).identities.Fits := by
  cases op with
  | write e =>
    rw [perform, (e.handed s).1]
    exact h.renderAll
  | reset | resetIdentities => exact IdentityTable.fits_empty

/-- Whatever is done with a session, its numbers have 32 bits. -/
theorem fits_performAll (ops : List Operation) : (({} : Session).performAll ops).identities.Fits := by
  induction ops using List.reverseRecOn with
  | nil => exact IdentityTable.fits_empty
  | append_singleton ops op ih =>
    rw [performAll_concat]
    exact fits_perform ih op

theorem exists_number_of_identityTexts {e : Export} (hmode : e.opts.identityMode = .anonymized)
    {ops : List Operation} {text : String}
    (htext : text ∈ e.identityTexts (({} : Session).performAll ops)) :
    ∃ k < UInt32.size, text = toString k := by
  have hfits := fits_performAll (ops ++ [.write e])
  rw [performAll_concat] at hfits
  rw [Export.identityTexts_eq, hmode] at htext
  obtain ⟨n, -, rfl⟩ := List.mem_map.mp htext
  exact hfits.exists_text n

end Session

namespace Index

variable {ctx : Context} {root : DeclId} {x y : Index}

/-- A number of 32 bits names no node of an index, and so nothing that a document with numbered identities
writes in the place of an identity does, whatever was done with its session before. -/
theorem numbers_unresolved (h : build ctx root x = .ok y) :
    (∀ n ≤ 4294967295, y.Unresolved (toString n)) ∧
    ∀ (ops : List Operation) (e : Export), e.opts.identityMode = .anonymized →
      ∀ text ∈ e.identityTexts (({} : Session).performAll ops), y.Unresolved text := by
  have hnumber : ∀ n < UInt32.size, y.Unresolved (toString n) := fun n hn =>
    unresolved_of_length_le h (length_toString_le hn)
  refine ⟨fun n hn => hnumber n (Nat.lt_succ_of_le hn), fun ops e hmode text htext => ?_⟩
  obtain ⟨k, hk, rfl⟩ := Session.exists_number_of_identityTexts hmode htext
  exact hnumber k hk

open Session (functionUnit numbered_recorded numbers_after recorded result_recorded)

/-- The type of a unit with eleven identities is `10` in a document, also in one that is written after
another. As a word that would be sixteen, which names nothing in the index of the unit. -/
theorem numbers_unresolved_functionUnit : ∃ y, build functionUnit ⟨0⟩ empty = .ok y ∧
    "10" ∈ (recorded functionUnit ⟨0⟩).identityTexts
      (({} : Session).performAll [.write (recorded functionUnit ⟨0⟩)]) ∧
    y.Unresolved "10" ∧ y.Unresolved (toString 4294967295) := by
  obtain ⟨y, hy⟩ := exists_build_functionUnit
  obtain ⟨hnumber, htexts⟩ := numbers_unresolved hy
  have hok : functionUnit.outcome ⟨0⟩ { identityMode := .anonymized } = .ok () := rfl
  have hfree := Export.inUse_after_of_ok (result_recorded (s := {}) rfl hok)
  have hwhole := ((recorded functionUnit ⟨0⟩).handed _).2.2 (result_recorded hfree hok)
  have hnumbers := numbers_after (recorded functionUnit ⟨0⟩)
    (numbers_after (s := {}) (recorded functionUnit ⟨0⟩) IdentityTable.numbers_empty)
  rw [numbered_recorded rfl hok, numbered_recorded hfree hok] at hnumbers
  have hten : "10" ∈ (recorded functionUnit ⟨0⟩).identityTexts
      (({} : Session).performAll [.write (recorded functionUnit ⟨0⟩)]) := by
    rw [Export.identityTexts_eq]
    refine List.mem_map.mpr ⟨.type ⟨0⟩, ?_, (hnumbers.text_eq ?_ ?_).trans ?_⟩
    · exact hwhole ▸ (by decide +kernel)
    · rw [hnumbers.size]
      decide +kernel
    · decide +kernel
    · decide +kernel
  exact ⟨y, hy, hten, htexts _ _ rfl _ hten, hnumber 4294967295 (Nat.le_refl _)⟩

end Index

end SyntaxExport
