import Mathlib.Algebra.Ring.Parity
import Mathlib.Data.List.DropRight
import SyntaxExport.Proofs.Document.Reader
import SyntaxExport.Proofs.Text.Hex

/-!
# The inside of string literals

What may stand between the quotes of a JSON string is said as a grammar: a character that stands for
itself, a backslash with one of eight characters, a code unit in four digits, or two of them for a
character beyond the basic plane. `Reader.string?` reads what the grammar spells, up to a closing quote,
and nothing else (`Reader.string?_eq_some_iff`). So a text spells one string at most, and a literal ends
at one quote at most.

Which quotes and backslashes of such a text mean themselves is seen from the runs of backslashes in
front of them. What is seen so of two texts is seen of one after the other (`Closed.append`).
-/

namespace SyntaxExport

namespace StringLiteral

open Reader (escaped?)

/-! ### The grammar -/

/-- The escapes: a backslash and one of eight characters, or `u` and four digits. -/
inductive Escape : List Char → Prop where
  | short {e : Char} : (escaped? e).isSome → Escape ['\\', e]
  | unicode {w x y z : Char} {n : Nat} : Hex.Digits [w, x, y, z] n → Escape ['\\', 'u', w, x, y, z]

/-- The ways to spell a character. -/
inductive Spelling : List Char → Char → Prop where
  | plain {c : Char} : c ≠ '"' → c ≠ '\\' → 0x20 ≤ c.toNat → Spelling [c] c
  | short {e c : Char} : escaped? e = some c → Spelling ['\\', e] c
  | unicode {w x y z c : Char} : Hex.Digits [w, x, y, z] c.toNat → Spelling ['\\', 'u', w, x, y, z] c
  /-- A character beyond the basic plane, as the two surrogates that stand for it. -/
  | pair {w x y z w' x' y' z' c : Char} {high low : Nat} :
    Hex.Digits [w, x, y, z] high → Hex.Digits [w', x', y', z'] low →
    0xd800 ≤ high ∧ high < 0xdc00 → 0xdc00 ≤ low ∧ low < 0xe000 →
    c.toNat = 0x10000 + (high - 0xd800) * 0x400 + (low - 0xdc00) →
    Spelling ['\\', 'u', w, x, y, z, '\\', 'u', w', x', y', z'] c

/-- The inside of a literal, and the characters that it spells. -/
inductive Spells : List Char → List Char → Prop where
  | nil : Spells [] []
  | cons {u t : List Char} {c : Char} {cs : List Char} : Spelling u c → Spells t cs →
    Spells (u ++ t) (c :: cs)

theorem Spelling.ne_quote {u : List Char} {c : Char} (h : Spelling u c) (s t : List Char) :
    u ++ s ≠ '"' :: t := by
  cases h with
  | plain hquote => exact fun heq => hquote (List.cons.inj heq).1
  | short | unicode | pair => exact fun heq => absurd (List.cons.inj heq).1 (by decide)

theorem Spelling.length_pos {u : List Char} {c : Char} (h : Spelling u c) : 0 < u.length := by
  cases h <;> exact Nat.succ_pos _

theorem Spells.length_le {t cs : List Char} (h : Spells t cs) : cs.length ≤ t.length := by
  induction h with
  | nil => exact Nat.le_refl 0
  | cons hu _ ih =>
    have hpos := hu.length_pos
    rw [List.length_cons, List.length_append]
    omega

/-! ### Runs of backslashes -/

/-- The length of the run of backslashes at the end of a text. -/
def slashes (s : List Char) : Nat :=
  (s.rtakeWhile (· = '\\')).length

theorem slashes_concat (s : List Char) (c : Char) :
    slashes (s ++ [c]) = if c = '\\' then slashes s + 1 else 0 := by
  rw [slashes, List.rtakeWhile_concat]
  by_cases h : c = '\\' <;> simp [h, slashes]

/-- Whether a run is even does not change with an even run in front of it. -/
theorem even_slashes_append {s : List Char} (h : Even (slashes s)) (t : List Char) :
    Even (slashes (s ++ t)) ↔ Even (slashes t) := by
  induction t using List.reverseRecOn with
  | nil =>
    rw [List.append_nil]
    exact iff_of_true h (by decide)
  | append_singleton t c ih =>
    rw [← List.append_assoc, slashes_concat, slashes_concat]
    split
    · rw [Nat.even_add_one, Nat.even_add_one, ih]
    · rfl

/-- A text in which quotes stand behind odd runs of backslashes, and a backslash behind an even run
begins an escape, such that the same holds of what follows it. -/
structure Closed (t : List Char) : Prop where
  quote : ∀ {pre post : List Char}, t = pre ++ '"' :: post → Odd (slashes pre)
  backslash : ∀ {pre post : List Char}, t = pre ++ '\\' :: post → Even (slashes pre) →
    ∃ u rest, Escape u ∧ '\\' :: post = u ++ rest
  even : Even (slashes t)

/-- A character of two texts one after the other is one of the first or one of the second. -/
theorem exists_of_append_eq_append_cons {s t pre post : List Char} {c : Char}
    (h : s ++ t = pre ++ c :: post) :
    (∃ w, s = pre ++ c :: w ∧ post = w ++ t) ∨ ∃ v, pre = s ++ v ∧ t = v ++ c :: post := by
  rcases List.append_eq_append_iff.mp h with ⟨v, hpre, ht⟩ | ⟨w, hs, hw⟩
  · exact .inr ⟨v, hpre, ht⟩
  · cases w with
    | nil => exact .inr ⟨[], by rw [hs, List.append_nil, List.append_nil], hw.symm⟩
    | cons c' w =>
      obtain ⟨rfl, rfl⟩ := List.cons.inj hw
      exact .inl ⟨w, hs, rfl⟩

namespace Closed

variable {s t : List Char}

theorem nil : Closed [] where
  quote h := absurd h (by simp)
  backslash h := absurd h (by simp)
  even := by decide

theorem append (hs : Closed s) (ht : Closed t) : Closed (s ++ t) where
  quote h := by
    rcases exists_of_append_eq_append_cons h with ⟨w, hs', -⟩ | ⟨v, rfl, ht'⟩
    · exact hs.quote hs'
    · have hodd := ht.quote ht'
      rwa [← Nat.not_even_iff_odd, even_slashes_append hs.even, Nat.not_even_iff_odd]
  backslash h heven := by
    rcases exists_of_append_eq_append_cons h with ⟨w, hs', rfl⟩ | ⟨v, rfl, ht'⟩
    · obtain ⟨u, rest, hu, hrest⟩ := hs.backslash hs' heven
      refine ⟨u, rest ++ t, hu, ?_⟩
      rw [← List.cons_append, hrest, List.append_assoc]
    · rw [even_slashes_append hs.even] at heven
      exact ht.backslash ht' heven
  even := (even_slashes_append hs.even t).mpr ht.even

end Closed

theorem closed_plain {c : Char} (hquote : c ≠ '"') (hslash : c ≠ '\\') : Closed [c] where
  quote h := by
    have hmem : '"' ∈ [c] := h ▸ List.mem_append_right _ List.mem_cons_self
    exact absurd (List.mem_singleton.mp hmem).symm hquote
  backslash h := by
    have hmem : '\\' ∈ [c] := h ▸ List.mem_append_right _ List.mem_cons_self
    exact absurd (List.mem_singleton.mp hmem).symm hslash
  even := by
    rw [← List.nil_append [c], slashes_concat, if_neg hslash]
    decide

/-- The quotes and backslashes of an escape are the backslash that begins it and the character after
this backslash. -/
theorem Escape.eq_of_special {pre post : List Char} {c : Char} (h : Escape (pre ++ c :: post))
    (hc : c = '"' ∨ c = '\\') : pre = [] ∧ c = '\\' ∨ pre = ['\\'] := by
  generalize hu : pre ++ c :: post = u at h
  cases h with
  | @short e he =>
    rcases pre with _ | ⟨b, _ | ⟨b', pre⟩⟩
    · exact .inl ⟨rfl, (List.cons.inj hu).1⟩
    · exact .inr (by rw [(List.cons.inj hu).1])
    · exact absurd (congrArg List.length hu) (by simp)
  | @unicode w x y z n hdigits =>
    rcases pre with _ | ⟨b, pre⟩
    · exact .inl ⟨rfl, (List.cons.inj hu).1⟩
    · have hmem : c ∈ ['u', w, x, y, z] :=
        (List.cons.inj hu).2 ▸ List.mem_append_right _ List.mem_cons_self
      rcases List.mem_cons.mp hmem with rfl | hdigit
      · exact absurd hc (by decide)
      · obtain ⟨d, hd⟩ := hdigits.exists_digit? c hdigit
        rcases hc with rfl | rfl <;> cases hd

theorem Escape.closed {u : List Char} (h : Escape u) : Closed u where
  quote heq := by
    subst heq
    rcases h.eq_of_special (.inl rfl) with ⟨-, hquote⟩ | rfl
    · exact absurd hquote (by decide)
    · exact ⟨0, rfl⟩
  backslash heq heven := by
    subst heq
    rcases h.eq_of_special (.inr rfl) with ⟨rfl, -⟩ | rfl
    · exact ⟨_, [], h, (List.append_nil _).symm⟩
    · exact absurd heven (by decide)
  even := by
    cases h with
    | @short e he =>
      change Even (slashes (['\\'] ++ [e]))
      rw [slashes_concat]
      split <;> decide
    | @unicode w x y z n hdigits =>
      have hz : z ≠ '\\' := by
        rintro rfl
        obtain ⟨d, hd⟩ := hdigits.exists_digit? '\\' (by simp)
        cases hd
      change Even (slashes (['\\', 'u', w, x, y] ++ [z]))
      rw [slashes_concat, if_neg hz]
      decide

theorem Spelling.closed {u : List Char} {c : Char} (h : Spelling u c) : Closed u := by
  cases h with
  | plain hquote hslash => exact closed_plain hquote hslash
  | short he => exact (Escape.short (by rw [he]; rfl)).closed
  | unicode hdigits => exact (Escape.unicode hdigits).closed
  | pair hhigh hlow => exact (Escape.unicode hhigh).closed.append (Escape.unicode hlow).closed

theorem Spells.closed {t cs : List Char} (h : Spells t cs) : Closed t := by
  induction h with
  | nil => exact .nil
  | cons hu _ ih => exact hu.closed.append ih

/-! ### Escaped texts -/

theorem toNat_lt_of_isControl {c : Char} (h : isControl c = true) : c.toNat < 16 ^ 4 := by
  simp [isControl] at h
  omega

theorem spelling_escapeChar (c : Char) : Spelling (escapeChar c) c := by
  unfold escapeChar
  split
  · next h =>
    subst h
    exact .short rfl
  split
  · next h =>
    subst h
    exact .short rfl
  split
  · next h =>
    subst h
    exact .short rfl
  split
  · next h =>
    subst h
    exact .short rfl
  split
  · next h =>
    subst h
    exact .short rfl
  split
  · next hcontrol =>
    obtain ⟨w, x, y, z, hfour, hdigits⟩ := Hex.exists_fourDigits (toNat_lt_of_isControl hcontrol)
    rw [hfour]
    exact .unicode hdigits
  · next hquote hslash _ _ _ hcontrol =>
    have hspace : 0x20 ≤ c.toNat := by
      simp [isControl] at hcontrol
      omega
    exact .plain hquote hslash hspace

theorem spells_flatMap_escapeChar : ∀ cs : List Char, Spells (cs.flatMap escapeChar) cs
  | [] => .nil
  | c :: cs => .cons (spelling_escapeChar c) (spells_flatMap_escapeChar cs)

@[simp] theorem toList_quoted (s : String) :
    (quoted s).toList = '"' :: ((escape s).toList ++ ['"']) := by
  simp [quoted]

theorem spells_escape (s : String) : Spells (escape s).toList s.toList := by
  rw [escape, String.toList_ofList]
  exact spells_flatMap_escapeChar s.toList

theorem isControl_eq_false_iff {c : Char} :
    isControl c = false ↔ 0x20 ≤ c.toNat ∧ (c.toNat < 0x7f ∨ 0xa0 ≤ c.toNat) := by
  rw [← Bool.not_eq_true, isControl]
  simp only [Bool.or_eq_true, Bool.and_eq_true, decide_eq_true_eq]
  omega

/-- A control character is written as digits, which are none. -/
theorem isControl_escapeChar (c : Char) : ∀ c' ∈ escapeChar c, isControl c' = false := by
  have hescape : ∀ {s : List Char}, (∀ c' ∈ s, isControl c' = false) →
      ∀ c' ∈ '\\' :: s, isControl c' = false :=
    fun hs => List.forall_mem_cons.mpr ⟨rfl, hs⟩
  unfold escapeChar
  split
  · exact hescape (List.forall_mem_singleton.mpr rfl)
  split
  · exact hescape (List.forall_mem_singleton.mpr rfl)
  split
  · exact hescape (List.forall_mem_singleton.mpr rfl)
  split
  · exact hescape (List.forall_mem_singleton.mpr rfl)
  split
  · exact hescape (List.forall_mem_singleton.mpr rfl)
  split
  · next hcontrol =>
    obtain ⟨w, x, y, z, hfour, hdigits⟩ := Hex.exists_fourDigits (toNat_lt_of_isControl hcontrol)
    rw [hfour]
    refine hescape (List.forall_mem_cons.mpr ⟨rfl, fun c' hc' => ?_⟩)
    obtain ⟨d, hd⟩ := hdigits.exists_digit? c' hc'
    have hlow : 0x30 ≤ c'.toNat := (Hex.le_of_digit? hd).1
    have hhigh : c'.toNat ≤ 0x66 := (Hex.le_of_digit? hd).2
    exact isControl_eq_false_iff.mpr ⟨by omega, .inl (by omega)⟩
  · next hcontrol => simpa using hcontrol

end StringLiteral

/-! ### The reader -/

namespace Reader

open StringLiteral (Spelling Spells)

theorem hex?_eq_some_iff {w x y z : Char} {n : Nat} :
    hex? w x y z = some n ↔ Hex.Digits [w, x, y, z] n := by
  have hnil : ∀ m, Hex.Digits [] m ↔ m = 0 := by
    intro m
    constructor
    · rintro ⟨⟩
      rfl
    · rintro rfl
      exact .nil
  unfold hex?
  simp only [Hex.digits_cons_iff, hnil, List.length_cons, List.length_nil]
  constructor
  · intro h
    split at h
    · next w x y z hw hx hy hz =>
      cases h
      exact ⟨w, _, hw, ⟨x, _, hx, ⟨y, _, hy, ⟨z, _, hz, rfl, rfl⟩, rfl⟩, rfl⟩, by omega⟩
    · cases h
  · rintro ⟨w, _, hw, ⟨x, _, hx, ⟨y, _, hy, ⟨z, _, hz, rfl, rfl⟩, rfl⟩, rfl⟩, rfl⟩
    simp only [hw, hx, hy, hz, Option.some.injEq]
    omega

theorem ofNat_eq_iff {n : Nat} {c : Char} (h : n.isValidChar) : Char.ofNat n = c ↔ c.toNat = n := by
  constructor
  · rintro rfl
    rw [Char.ofNat, dif_pos h]
    rfl
  · rintro rfl
    exact Char.ofNat_toNat c

/-- The second half of a pair gives a character with the first. -/
theorem low?_eq_some_iff {high : Nat} (hhigh : 0xd800 ≤ high ∧ high < 0xdc00) {s rest : List Char}
    {c : Char} : low? high s = some (c, rest) ↔ ∃ w x y z low,
      Hex.Digits [w, x, y, z] low ∧ (0xdc00 ≤ low ∧ low < 0xe000) ∧
      c.toNat = 0x10000 + (high - 0xd800) * 0x400 + (low - 0xdc00) ∧
      s = '\\' :: 'u' :: w :: x :: y :: z :: rest := by
  have hvalid : ∀ {low : Nat}, 0xdc00 ≤ low ∧ low < 0xe000 →
      (0x10000 + (high - 0xd800) * 0x400 + (low - 0xdc00)).isValidChar := by
    intro low hlow
    refine .inr ⟨?_, ?_⟩ <;> omega
  constructor
  · intro h
    unfold low? at h
    split at h
    · next w x y z rest' =>
      split at h
      · cases h
      · next low hhex =>
        split at h
        · next hlow =>
          obtain ⟨hc, rfl⟩ := Prod.mk.inj (Option.some.inj h)
          exact ⟨w, x, y, z, low, hex?_eq_some_iff.mp hhex, hlow, (ofNat_eq_iff (hvalid hlow)).mp hc, rfl⟩
        · cases h
    · cases h
  · rintro ⟨w, x, y, z, low, hdigits, hlow, hc, rfl⟩
    simp only [low?, hex?_eq_some_iff.mpr hdigits, if_pos hlow, (ofNat_eq_iff (hvalid hlow)).mpr hc]

theorem char?_of_spelling {u : List Char} {c : Char} (h : Spelling u c) (rest : List Char) :
    char? (u ++ rest) = some (c, rest) := by
  cases h with
  | plain hquote hslash hspace =>
    unfold char?
    split
    · next heq => exact absurd (List.cons.inj heq).1 hslash
    · next heq => exact absurd (List.cons.inj heq).1 hslash
    · next heq =>
      obtain ⟨rfl, rfl⟩ := List.cons.inj heq
      have hlow : ¬c.toNat < 0x20 := Nat.not_lt.mpr hspace
      simp [hquote, hslash, hlow]
    · next heq => cases heq
  | @short e _ he =>
    have hu : e ≠ 'u' := by
      rintro rfl
      cases he
    simp [char?, he, hu]
  | unicode hdigits =>
    have hvalid : c.toNat < 0xd800 ∨ 0xdfff < c.toNat ∧ c.toNat < 0x110000 := c.valid
    have hhigh : ¬(0xd800 ≤ c.toNat ∧ c.toNat < 0xdc00) := by omega
    have hlow : ¬(0xdc00 ≤ c.toNat ∧ c.toNat < 0xe000) := by omega
    simp only [List.cons_append, List.nil_append, char?, hex?_eq_some_iff.mpr hdigits, if_neg hhigh,
      if_neg hlow, Char.ofNat_toNat]
  | pair hdigits hdigits' hhigh hlow hc =>
    simp only [List.cons_append, List.nil_append, char?, hex?_eq_some_iff.mpr hdigits, if_pos hhigh]
    exact (low?_eq_some_iff hhigh).mpr ⟨_, _, _, _, _, hdigits', hlow, hc, rfl⟩

theorem exists_spelling_of_char? {s rest : List Char} {c : Char} (h : char? s = some (c, rest)) :
    ∃ u, Spelling u c ∧ s = u ++ rest := by
  unfold char? at h
  split at h
  · next w x y z rest' =>
    split at h
    · cases h
    · next n hhex =>
      have hdigits := hex?_eq_some_iff.mp hhex
      split at h
      · next hhigh =>
        obtain ⟨w', x', y', z', low, hdigits', hlow, hc, rfl⟩ := (low?_eq_some_iff hhigh).mp h
        exact ⟨_, .pair hdigits hdigits' hhigh hlow hc, rfl⟩
      · next hhigh =>
        split at h
        · cases h
        · next hlow =>
          obtain ⟨hc, rfl⟩ := Prod.mk.inj (Option.some.inj h)
          have hn : n < 16 ^ 4 := hdigits.lt
          have hvalid : n.isValidChar := by
            rcases Nat.lt_or_ge n 0xd800 with hlt | hge
            · exact .inl hlt
            · refine .inr ⟨?_, ?_⟩ <;> omega
          rw [← (ofNat_eq_iff hvalid).mp hc] at hdigits
          exact ⟨_, .unicode hdigits, rfl⟩
  · next e rest' _ =>
    obtain ⟨c', he, hpair⟩ := Option.map_eq_some_iff.mp h
    obtain ⟨rfl, rfl⟩ := Prod.mk.inj hpair
    exact ⟨_, .short he, rfl⟩
  · next c' rest' _ _ =>
    split at h
    · cases h
    · next hplain =>
      obtain ⟨rfl, rfl⟩ := Prod.mk.inj (Option.some.inj h)
      obtain ⟨hquote, hslash, hspace⟩ := by simpa only [not_or] using hplain
      exact ⟨_, .plain hquote hslash (Nat.not_lt.mp hspace), rfl⟩
  · cases h

theorem chars?_of_spells {t cs : List Char} (h : Spells t cs) (rest : List Char) :
    ∀ {n : Nat}, cs.length < n → chars? n (t ++ '"' :: rest) = some (cs, rest) := by
  induction h with
  | nil =>
    intro n hn
    obtain ⟨n, rfl⟩ := Nat.exists_eq_succ_of_ne_zero (Nat.ne_of_gt hn)
    rfl
  | @cons u t c cs hu ht ih =>
    intro n hn
    obtain ⟨n, rfl⟩ := Nat.exists_eq_succ_of_ne_zero (Nat.ne_of_gt (Nat.zero_lt_of_lt hn))
    rw [List.append_assoc, chars?, char?_of_spelling hu]
    · simp only [ih (Nat.lt_of_succ_lt_succ hn)]
    · exact hu.ne_quote _

theorem exists_spells_of_chars? : ∀ {n : Nat} {s cs rest : List Char},
    chars? n s = some (cs, rest) → ∃ t, Spells t cs ∧ s = t ++ '"' :: rest
  | n + 1, s, cs, rest, h => by
    unfold chars? at h
    split at h
    · next rest' =>
      obtain ⟨rfl, rfl⟩ := Prod.mk.inj (Option.some.inj h)
      exact ⟨[], .nil, rfl⟩
    · split at h
      · cases h
      · next c s' hchar =>
        split at h
        · cases h
        · next cs' rest' hchars =>
          obtain ⟨rfl, rfl⟩ := Prod.mk.inj (Option.some.inj h)
          obtain ⟨u, hu, rfl⟩ := exists_spelling_of_char? hchar
          obtain ⟨t, ht, rfl⟩ := exists_spells_of_chars? hchars
          exact ⟨u ++ t, .cons hu ht, (List.append_assoc ..).symm⟩

theorem string?_eq_some_iff {s rest : List Char} {text : String} :
    string? s = some (text, rest) ↔ ∃ t, Spells t text.toList ∧ s = t ++ '"' :: rest := by
  constructor
  · intro h
    obtain ⟨⟨cs, rest'⟩, hchars, hpair⟩ := Option.map_eq_some_iff.mp h
    obtain ⟨rfl, rfl⟩ := Prod.mk.inj hpair
    rw [String.toList_ofList]
    exact exists_spells_of_chars? hchars
  · rintro ⟨t, ht, rfl⟩
    have hlength := ht.length_le
    have hchars := chars?_of_spells ht rest (n := (t ++ '"' :: rest).length + 1)
      (by rw [List.length_append]; omega)
    rw [string?, hchars]
    simp

theorem string?_quoted (s : String) (rest : List Char) :
    string? ((escape s).toList ++ '"' :: rest) = some (s, rest) :=
  string?_eq_some_iff.mpr ⟨_, StringLiteral.spells_escape s, rfl⟩

end Reader

namespace StringLiteral

/-- A text is the inside of one literal at most, whatever stands after the literals, and it spells one
string. -/
theorem Spells.eq_of_append {t t' cs cs' rest rest' : List Char} (h : Spells t cs) (h' : Spells t' cs')
    (heq : t ++ '"' :: rest = t' ++ '"' :: rest') : t = t' ∧ cs = cs' ∧ rest = rest' := by
  have hread : Reader.string? (t ++ '"' :: rest) = some (String.ofList cs, rest) :=
    Reader.string?_eq_some_iff.mpr ⟨t, by rwa [String.toList_ofList], rfl⟩
  have hread' : Reader.string? (t' ++ '"' :: rest') = some (String.ofList cs', rest') :=
    Reader.string?_eq_some_iff.mpr ⟨t', by rwa [String.toList_ofList], rfl⟩
  rw [heq, hread'] at hread
  obtain ⟨hcs, rfl⟩ := Prod.mk.inj (Option.some.inj hread)
  exact ⟨List.append_cancel_right heq, (String.ofList_injective hcs).symm, rfl⟩

theorem Spells.unique {t cs cs' : List Char} (h : Spells t cs) (h' : Spells t cs') : cs = cs' :=
  (h.eq_of_append h' (rfl : t ++ ['"'] = t ++ ['"'])).2.1

/-- The inside of the literal of a text has no control character, the quotes and backslashes in it are
seen to be escaped, and it spells the text and nothing else. So different texts have different literals,
the text is read back whatever stands after the literal, and there is no other place where the literal
could end. -/
theorem escape_spells (s : String) :
    (∀ c ∈ (escape s).toList, 0x20 ≤ c.toNat ∧ (c.toNat < 0x7f ∨ 0xa0 ≤ c.toNat)) ∧
    Closed (escape s).toList ∧
    (∀ cs, Spells (escape s).toList cs ↔ cs = s.toList) ∧
    (∀ s', escape s' = escape s → s' = s) ∧
    (∀ rest, Reader.string? ((escape s).toList ++ '"' :: rest) = some (s, rest)) ∧
    (∀ rest t cs after, (quoted s).toList ++ rest = '"' :: (t ++ '"' :: after) → Spells t cs →
      t = (escape s).toList ∧ after = rest) := by
  have hs := spells_escape s
  refine ⟨?_, hs.closed, ?_, ?_, Reader.string?_quoted s, ?_⟩
  · intro c hc
    rw [escape, String.toList_ofList] at hc
    obtain ⟨d, -, hd⟩ := List.mem_flatMap.mp hc
    exact isControl_eq_false_iff.mp (isControl_escapeChar d c hd)
  · intro cs
    constructor
    · exact fun hcs => hcs.unique hs
    · rintro rfl
      exact hs
  · intro s' heq
    have hs' := spells_escape s'
    rw [heq] at hs'
    exact String.toList_injective (hs'.unique hs)
  · intro rest t cs after heq ht
    rw [toList_quoted, List.cons_append, List.append_assoc, List.singleton_append] at heq
    obtain ⟨ht, -, hrest⟩ := ht.eq_of_append hs (List.cons.inj heq).2.symm
    exact ⟨ht, hrest⟩

/-- A text that looks like an escape and ends with a backslash. -/
example : Reader.string? ((escape "\\u0041\\").toList ++ ['"', '"']) = some ("\\u0041\\", ['"']) := by
  rfl

end StringLiteral

end SyntaxExport
