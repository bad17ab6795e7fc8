import SyntaxExport.Proofs.Identity.Word

/-!
# Texts of identities

A text of a number has its hexadecimal digits, one at least, in either case and with any number of zeros
in front. A plus sign may stand before them, and a mark `0x` or `0X` before that
(`NodeIdentity.Denotes`). The texts of the numbers below 2 ^ 64 are the texts that are read as
identities, each as the identity with its number as the word (`NodeIdentity.parse_ok_iff_denotes`).
-/

namespace SyntaxExport.NodeIdentity

/-- The marks that may stand in front of an identity. -/
def marks : List (List Char) := [[], ['0', 'x'], ['0', 'X']]

/-- `s` is a text of the number `n`. -/
def Denotes (s : String) (n : Nat) : Prop :=
  ∃ mark ∈ marks, ∃ sign ∈ Hex.signs, ∃ digits ≠ [],
    Hex.Digits digits n ∧ s.toList = mark ++ (sign ++ digits)

/-! ### Marks -/

/-- A text begins with its mark. -/
theorem exists_mark (s : List Char) : ∃ mark ∈ marks, s = mark ++ dropMark s := by
  rw [dropMark.eq_def]
  split
  · exact ⟨['0', 'x'], by simp [marks], rfl⟩
  · exact ⟨['0', 'X'], by simp [marks], rfl⟩
  · exact ⟨[], by simp [marks], rfl⟩

theorem dropMark_of_unmarked {s : List Char} (h : ∀ c ∈ s, c ≠ 'x' ∧ c ≠ 'X') : dropMark s = s := by
  rw [dropMark.eq_def]
  split
  · exact absurd rfl (h 'x' (by simp)).1
  · exact absurd rfl (h 'X' (by simp)).2
  · rfl

/-- The letter of a mark is neither a sign nor a digit. -/
theorem unmarked_append {sign digits : List Char} {n : Nat} (hsign : sign ∈ Hex.signs)
    (hdigits : Hex.Digits digits n) : ∀ c ∈ sign ++ digits, c ≠ 'x' ∧ c ≠ 'X' := by
  intro c hc
  rcases List.mem_append.mp hc with hc | hc
  · simp only [Hex.signs, List.mem_cons, List.not_mem_nil, or_false] at hsign
    rcases hsign with rfl | rfl
    · cases hc
    · rw [List.mem_singleton.mp hc]
      decide
  · obtain ⟨d, hdigit⟩ := hdigits.exists_digit? c hc
    constructor
    · rintro rfl
      cases hdigit
    · rintro rfl
      cases hdigit

/-- At most one mark is dropped: what stands after it is not taken for another one. -/
theorem dropMark_append {mark sign digits : List Char} {n : Nat} (hmark : mark ∈ marks)
    (hsign : sign ∈ Hex.signs) (hdigits : Hex.Digits digits n) :
    dropMark (mark ++ (sign ++ digits)) = sign ++ digits := by
  simp only [marks, List.mem_cons, List.not_mem_nil, or_false] at hmark
  rcases hmark with rfl | rfl | rfl
  · rw [List.nil_append]
    exact dropMark_of_unmarked (unmarked_append hsign hdigits)
  · rfl
  · rfl

/-! ### Numbers -/

/-- What is read after the mark of a text is the number of the text. -/
theorem readBelow_dropMark_iff {limit n : Nat} {s : String} (hlimit : 0 < limit) :
    Hex.readBelow limit (dropMark s.toList) = .ok n ↔ Denotes s n ∧ n < limit := by
  rw [Hex.readBelow_eq_ok_iff hlimit]
  refine and_congr_left fun _ => ?_
  constructor
  · rintro ⟨sign, hsign, digits, hne, hdigits, hs⟩
    obtain ⟨mark, hmark, hsplit⟩ := exists_mark s.toList
    exact ⟨mark, hmark, sign, hsign, digits, hne, hdigits, by rw [← hs, ← hsplit]⟩
  · rintro ⟨mark, hmark, sign, hsign, digits, hne, hdigits, hs⟩
    exact ⟨sign, hsign, digits, hne, hdigits, by rw [hs, dropMark_append hmark hsign hdigits]⟩

/-- A text is the text of one number. -/
theorem Denotes.unique {s : String} {n m : Nat} (hn : Denotes s n) (hm : Denotes s m) : n = m := by
  have hpos : 0 < n + m + 1 := by omega
  have hreadn := (readBelow_dropMark_iff hpos).mpr ⟨hn, by omega⟩
  have hreadm := (readBelow_dropMark_iff hpos).mpr ⟨hm, by omega⟩
  rw [hreadn] at hreadm
  exact Except.ok.inj hreadm

/-- A text has at most one digit for each of its characters. -/
theorem Denotes.lt {s : String} {n : Nat} (h : Denotes s n) : n < 16 ^ s.length := by
  obtain ⟨mark, -, sign, -, digits, -, hdigits, hs⟩ := h
  have hlength : digits.length ≤ s.length := by
    rw [← String.length_toList, hs, List.length_append, List.length_append]
    omega
  exact Nat.lt_of_lt_of_le hdigits.lt (Nat.pow_le_pow_right (by decide) hlength)

theorem parse_eq_ok_iff {s : String} {i : NodeIdentity} : parse s = .ok i ↔ Denotes s i.raw.toNat := by
  have hpos : 0 < UInt64.size := by decide
  constructor
  · intro h
    rw [parse] at h
    cases hread : Hex.readBelow UInt64.size (dropMark s.toList) with
    | error e =>
      rw [hread] at h
      cases h
    | ok n =>
      rw [hread] at h
      cases h
      obtain ⟨hs, hn⟩ := (readBelow_dropMark_iff hpos).mp hread
      have hword : (UInt64.ofNat n).toNat = n := UInt64.toNat_ofNat_of_lt' hn
      exact hword.symm ▸ hs
  · intro h
    rw [parse, (readBelow_dropMark_iff hpos).mpr ⟨h, i.raw.toNat_lt⟩]
    exact congrArg (fun n => Except.ok (NodeIdentity.mk n)) UInt64.ofNat_toNat

/-- The text of an identity is read as that identity. What is read as an identity is a text of a number
below 2 ^ 64, and it is read as the identity with this number as its word. As a text is the text of one
number, two of them are read as the same identity exactly if they are texts of the same number. -/
theorem parse_ok_iff_denotes :
    (∀ i : NodeIdentity, parse i.text = .ok i) ∧
    (∀ (s : String) (n : Nat),
      (∃ i, parse s = .ok i ∧ i.raw.toNat = n) ↔ Denotes s n ∧ n < 2 ^ 64) ∧
    (∀ (s : String) (n m : Nat), Denotes s n → Denotes s m → n = m) ∧
    ∀ (s t : String) (i j : NodeIdentity), parse s = .ok i → parse t = .ok j →
      (i = j ↔ ∃ n, Denotes s n ∧ Denotes t n) := by
  refine ⟨parse_text, fun s n => ⟨?_, ?_⟩, fun s n m => Denotes.unique, fun s t i j hs ht => ⟨?_, ?_⟩⟩
  · rintro ⟨i, hi, rfl⟩
    exact ⟨parse_eq_ok_iff.mp hi, i.raw.toNat_lt⟩
  · rintro ⟨hs, hn⟩
    have hword : (UInt64.ofNat n).toNat = n := UInt64.toNat_ofNat_of_lt' hn
    exact ⟨⟨.ofNat n⟩, parse_eq_ok_iff.mpr (hword.symm ▸ hs), hword⟩
  · rintro rfl
    exact ⟨i.raw.toNat, parse_eq_ok_iff.mp hs, parse_eq_ok_iff.mp ht⟩
  · rintro ⟨n, hsn, htn⟩
    have hi : i.raw.toNat = n := (parse_eq_ok_iff.mp hs).unique hsn
    have hj : j.raw.toNat = n := (parse_eq_ok_iff.mp ht).unique htn
    have hraw : i.raw = j.raw := UInt64.toNat_inj.mp (hi.trans hj.symm)
    cases i
    exact congrArg NodeIdentity.mk hraw

/-- A mark, a sign and zeros in front make no difference. A second mark does. -/
example : ["0X+00000000000000000000fF", "ff", "0x0xff", "0x+"].map parse
    = [.ok ⟨255⟩, .ok ⟨255⟩, .error .invalidDigit, .error .invalidDigit] := by
  rfl

end SyntaxExport.NodeIdentity
