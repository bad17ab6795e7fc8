import Mathlib.Algebra.Ring.Nat
import SyntaxExport.Text.Hex

/-!
# Digits read back

The digits of a number are read back as that number, wherever it is below the limit of the reader.
So different numbers have different digits.

The reader takes the digits of either case, with any number of zeros in front and after at most one
plus sign, and nothing else (`Hex.readBelow_eq_ok_iff`): what it reads is the value of the digits by
their places, if that is below the limit.
-/

namespace SyntaxExport.Hex

/-- The digit below the base has its value. -/
theorem digit?_digitChar : ∀ d < 16, digit? (Nat.digitChar d) = some d := by
  decide

theorem readDigits_append (limit : Nat) : ∀ (s t : List Char) (acc : Nat),
    readDigits limit acc (s ++ t) = (readDigits limit acc s).bind fun n => readDigits limit n t
  | [], _, _ => rfl
  | c :: s, t, acc => by
    rw [List.cons_append, readDigits, readDigits]
    cases digit? c with
    | none => rfl
    | some d =>
      by_cases hlt : acc * 16 + d < limit
      · simp only [if_pos hlt]
        exact readDigits_append limit s t _
      · simp only [if_neg hlt]
        rfl

/-- A digit after those of a number. -/
theorem readDigits_digitChar {limit acc d : Nat} (hd : d < 16) (h : acc * 16 + d < limit) :
    readDigits limit acc [Nat.digitChar d] = .ok (acc * 16 + d) := by
  simp only [readDigits, digit?_digitChar d hd, if_pos h]

theorem readDigits_digits {limit : Nat} (n : Nat) (h : n < limit) :
    readDigits limit 0 (digits n) = .ok n := by
  induction n using Nat.strongRecOn with
  | ind n ih =>
    by_cases hn : n < 16
    · have hread : readDigits limit 0 [Nat.digitChar n] = .ok (0 * 16 + n) :=
        readDigits_digitChar hn (by omega)
      rw [digits, Nat.toDigits_of_lt_base hn, hread, Nat.zero_mul, Nat.zero_add]
    · have hquot : readDigits limit 0 (digits (n / 16)) = .ok (n / 16) := ih _ (by omega) (by omega)
      have hdiv : n / 16 * 16 + n % 16 = n := Nat.div_add_mod' n 16
      rw [digits] at hquot ⊢
      rw [Nat.toDigits_of_base_le (by omega) (by omega), readDigits_append, hquot]
      change readDigits limit (n / 16) [Nat.digitChar (n % 16)] = .ok n
      rw [readDigits_digitChar (Nat.mod_lt n (by omega)) (by omega), hdiv]

/-- A text of digits does not begin with a sign. -/
theorem readBelow_eq {limit n : Nat} {s : List Char} (hs : s ≠ [])
    (h : readDigits limit 0 s = .ok n) : readBelow limit s = .ok n := by
  cases s with
  | nil => exact absurd rfl hs
  | cons c rest =>
    have hc : c ≠ '+' := by
      rintro rfl
      cases h
    rw [readBelow.eq_def]
    split
    · contradiction
    · next heq => exact absurd (List.cons.inj heq).1 hc
    · next heq => exact absurd (List.cons.inj heq).1 hc
    · exact h

theorem readBelow_digits {limit n : Nat} (h : n < limit) : readBelow limit (digits n) = .ok n :=
  readBelow_eq Nat.toDigits_ne_nil (readDigits_digits n h)

theorem digits_injective {n m : Nat} (h : digits n = digits m) : n = m := by
  have hn := readDigits_digits n (by omega : n < n + m + 1)
  have hm := readDigits_digits m (by omega : m < n + m + 1)
  rw [h, hm] at hn
  exact (Except.ok.inj hn).symm

/-! ### The numbers that are read -/

/-- `c` is the digit `d` in lower or upper case. -/
def IsDigit (c : Char) (d : Nat) : Prop :=
  "0123456789abcdef".toList[d]? = some c ∨ "0123456789ABCDEF".toList[d]? = some c

instance (c : Char) (d : Nat) : Decidable (IsDigit c d) :=
  inferInstanceAs (Decidable (_ ∨ _))

/-- Digits, the highest first, and their value. -/
inductive Digits : List Char → Nat → Prop where
  | nil : Digits [] 0
  | cons {c : Char} {d : Nat} {s : List Char} {n : Nat} : IsDigit c d → Digits s n →
    Digits (c :: s) (d * 16 ^ s.length + n)

theorem IsDigit.lt {c : Char} {d : Nat} (h : IsDigit c d) : d < 16 := by
  rcases h with h | h <;> exact (List.getElem?_eq_some_iff.mp h).1

theorem le_of_digit? {c : Char} {d : Nat} (h : digit? c = some d) : '0' ≤ c ∧ c ≤ 'f' := by
  unfold digit? at h
  split at h
  · next hc => exact ⟨hc.1, Char.le_trans hc.2 (by decide)⟩
  split at h
  · next hc => exact ⟨Char.le_trans (by decide) hc.1, hc.2⟩
  split at h
  · next hc => exact ⟨Char.le_trans (by decide) hc.1, Char.le_trans hc.2 (by decide)⟩
  · cases h

theorem digit?_eq_some_iff {c : Char} {d : Nat} : digit? c = some d ↔ IsDigit c d := by
  constructor
  · intro h
    have hascii : ∀ n < 128, ∀ d ∈ digit? (Char.ofNat n), IsDigit (Char.ofNat n) d := by decide
    have hf : c.toNat ≤ 102 := (le_of_digit? h).2
    have hc := hascii c.toNat (by omega) d (by rwa [Char.ofNat_toNat])
    rwa [Char.ofNat_toNat] at hc
  · have hlower : ∀ d < 16, ("0123456789abcdef".toList[d]?.all fun c => digit? c == some d) = true := by
      decide
    have hupper : ∀ d < 16, ("0123456789ABCDEF".toList[d]?.all fun c => digit? c == some d) = true := by
      decide
    intro h
    have hd := h.lt
    rcases h with h | h
    · have hc := hlower d hd
      rw [h] at hc
      exact eq_of_beq hc
    · have hc := hupper d hd
      rw [h] at hc
      exact eq_of_beq hc

variable {limit acc m n : Nat} {c : Char} {s t : List Char}

theorem digits_cons_iff : Digits (c :: s) n ↔
    ∃ d m, digit? c = some d ∧ Digits s m ∧ n = d * 16 ^ s.length + m := by
  constructor
  · intro h
    cases h with
    | cons hc hs => exact ⟨_, _, digit?_eq_some_iff.mpr hc, hs, rfl⟩
  · rintro ⟨d, m, hc, hs, rfl⟩
    exact .cons (digit?_eq_some_iff.mp hc) hs

/-- A digit more at the front of what is read is a digit more at the end of what was read. -/
theorem mul_pow_succ_add (acc d k n : Nat) :
    acc * 16 ^ (k + 1) + (d * 16 ^ k + n) = (acc * 16 + d) * 16 ^ k + n := by
  rw [Nat.pow_succ', Nat.add_mul, Nat.mul_assoc, Nat.add_assoc]

/-- Digits are read as the number that they continue, if it stays below the limit. It is not smaller
than any number on the way to it. -/
theorem readDigits_eq_ok_iff (hacc : acc < limit) : readDigits limit acc s = .ok m ↔
    ∃ n, Digits s n ∧ m = acc * 16 ^ s.length + n ∧ m < limit := by
  induction s generalizing acc with
  | nil =>
    constructor
    · intro h
      cases h
      exact ⟨0, .nil, by simp, hacc⟩
    · rintro ⟨n, ⟨⟩, rfl, -⟩
      simp [readDigits]
  | cons c s ih =>
    rw [readDigits]
    cases hc : digit? c with
    | none =>
      refine iff_of_false nofun ?_
      rintro ⟨n, hn, -⟩
      obtain ⟨d, k, hd, -⟩ := digits_cons_iff.mp hn
      cases hc.symm.trans hd
    | some d =>
      have hcons : ∀ k, Digits (c :: s) k ↔ ∃ n, Digits s n ∧ k = d * 16 ^ s.length + n := by
        intro k
        simp [digits_cons_iff, hc]
      have hread : (∃ k, Digits (c :: s) k ∧ m = acc * 16 ^ (c :: s).length + k ∧ m < limit) ↔
          ∃ n, Digits s n ∧ m = (acc * 16 + d) * 16 ^ s.length + n ∧ m < limit := by
        simp only [hcons, List.length_cons]
        constructor
        · rintro ⟨_, ⟨n, hn, rfl⟩, hm⟩
          exact ⟨n, hn, mul_pow_succ_add acc d _ n ▸ hm⟩
        · rintro ⟨n, hn, hm⟩
          exact ⟨_, ⟨n, hn, rfl⟩, (mul_pow_succ_add acc d _ n).symm ▸ hm⟩
      rw [hread]
      by_cases hlt : acc * 16 + d < limit
      · simp only [if_pos hlt, ih hlt]
      · simp only [if_neg hlt]
        refine iff_of_false nofun ?_
        rintro ⟨n, -, hm, hmlt⟩
        have hle : acc * 16 + d ≤ (acc * 16 + d) * 16 ^ s.length := Nat.le_mul_of_pos_right _ (Nat.pow_pos (by decide))
        omega

theorem Digits.lt (h : Digits s n) : n < 16 ^ s.length := by
  induction h with
  | nil => decide
  | @cons c d s n hc _ ih =>
    have hd : d + 1 ≤ 16 := hc.lt
    calc d * 16 ^ s.length + n < d * 16 ^ s.length + 16 ^ s.length := Nat.add_lt_add_left ih _
      _ = (d + 1) * 16 ^ s.length := (Nat.succ_mul d _).symm
      _ ≤ 16 * 16 ^ s.length := Nat.mul_le_mul_right _ hd
      _ = 16 ^ (c :: s).length := (Nat.pow_succ' ..).symm

theorem Digits.exists_digit? (h : Digits s n) : ∀ c ∈ s, ∃ d, digit? c = some d := by
  induction h with
  | nil => nofun
  | cons hc _ ih => exact List.forall_mem_cons.mpr ⟨⟨_, digit?_eq_some_iff.mpr hc⟩, ih⟩

/-! ### The numbers that are written -/

theorem Digits.zero_cons (h : Digits s n) : Digits ('0' :: s) n := by
  have hcons : Digits ('0' :: s) (0 * 16 ^ s.length + n) := .cons (.inl rfl) h
  rwa [Nat.zero_mul, Nat.zero_add] at hcons

theorem Digits.zeros_append (h : Digits s n) : ∀ k, Digits (List.replicate k '0' ++ s) n
  | 0 => h
  | k + 1 => (h.zeros_append k).zero_cons

theorem digits_spec (n : Nat) : Digits (digits n) n := by
  have hread := readDigits_digits n (Nat.lt_succ_self n)
  obtain ⟨m, hm, heq, -⟩ := (readDigits_eq_ok_iff (Nat.succ_pos n)).mp hread
  rw [Nat.zero_mul, Nat.zero_add] at heq
  exact heq ▸ hm

/-- A number of four digits is written with four. -/
theorem exists_fourDigits (h : n < 16 ^ 4) :
    ∃ w x y z, fourDigits n = [w, x, y, z] ∧ Digits [w, x, y, z] n := by
  have hdigits : Digits (fourDigits n) n := (digits_spec n).zeros_append _
  have hle : (digits n).length ≤ 4 := (Nat.length_toDigits_le_iff (by decide) (by decide)).mpr h
  have hlength : (fourDigits n).length = 4 := by
    rw [fourDigits, List.length_append, List.length_replicate]
    omega
  match fourDigits n, hlength, hdigits with
  | [w, x, y, z], _, hdigits => exact ⟨w, x, y, z, rfl, hdigits⟩

/-! ### Signs -/

/-- The signs that may stand in front of a number. -/
def signs : List (List Char) := [[], ['+']]

/-- A number is read from digits, of which there is one at least, after a plus sign or none. -/
theorem readBelow_eq_ok_iff (hlimit : 0 < limit) : readBelow limit s = .ok n ↔
    (∃ sign ∈ signs, ∃ digits ≠ [], Digits digits n ∧ s = sign ++ digits) ∧ n < limit := by
  have hdigits : ∀ {t}, readDigits limit 0 t = .ok n ↔ Digits t n ∧ n < limit := by
    intro t
    rw [readDigits_eq_ok_iff hlimit]
    simp only [Nat.zero_mul, Nat.zero_add]
    constructor
    · rintro ⟨_, ht, rfl, hn⟩
      exact ⟨ht, hn⟩
    · rintro ⟨ht, hn⟩
      exact ⟨n, ht, rfl, hn⟩
  constructor
  · intro h
    rw [readBelow.eq_def] at h
    split at h
    · cases h
    · cases h
    · next rest hne =>
      obtain ⟨hrest, hn⟩ := hdigits.mp h
      exact ⟨⟨['+'], by simp [signs], rest, fun hnil => hne hnil, hrest, rfl⟩, hn⟩
    · next hne _ _ =>
      obtain ⟨hs, hn⟩ := hdigits.mp h
      exact ⟨⟨[], by simp [signs], s, fun hnil => hne hnil, hs, rfl⟩, hn⟩
  · rintro ⟨⟨sign, hsign, digits, hne, hd, rfl⟩, hn⟩
    have hread := hdigits.mpr ⟨hd, hn⟩
    simp only [signs, List.mem_cons, List.not_mem_nil, or_false] at hsign
    rcases hsign with rfl | rfl
    · exact readBelow_eq hne hread
    · rw [List.singleton_append, readBelow.eq_def]
      cases digits with
      | nil => exact absurd rfl hne
      | cons => exact hread

end SyntaxExport.Hex
