import SyntaxExport.Proofs.Document.Literals
import SyntaxExport.Proofs.Document.Streaming

/-!
# Texts read back

`Reader.value?_text` says that the reader gets back from the text of a document what the dialect can
tell of it (`Value.image`), pretty or not, whatever stands after the text. A number is the one thing
that does not end by itself, so what stands after it must not go on with it (`Reader.Stops`). A container
is read back if its parts are (`Reader.ReadsBack`), with one lemma for each kind of container.
-/

namespace SyntaxExport

open StringLiteral (toList_quoted)

/-! ### What a dialect can tell -/

def Scalar.literal (d : Dialect) : Scalar → Literal
  | .string s => .string s
  | .integer i => .number i 0
  | .unsigned n => .number n 0
  | .boolean b => .boolean b
  | .simple tag =>
    match d with
    | .json => .string tag
    | .yojson => .simple tag

namespace Value

mutual

/-- What a dialect can tell of a document. -/
def image (d : Dialect) : Value → Tree Literal
  | .leaf x => .leaf (x.literal d)
  | .object fs => .object (imageFields d fs)
  | .array ts => .array (imageItems d ts)
  | .tuple ts =>
    match d with
    | .json => .array (imageItems d ts)
    | .yojson => .tuple (imageItems d ts)
  | .variant tag v =>
    match d with
    | .json => .array [.leaf (.string tag), image d v]
    | .yojson => .variant tag (image d v)

/-- What a dialect can tell of the fields of an object. -/
def imageFields (d : Dialect) : List (String × Value) → List (String × Tree Literal)
  | [] => []
  | (name, v) :: fs => (name, image d v) :: imageFields d fs

/-- What a dialect can tell of the elements of an array or tuple. -/
def imageItems (d : Dialect) : List Value → List (Tree Literal)
  | [] => []
  | v :: vs => image d v :: imageItems d vs

end

end Value

namespace Reader

/-! ### Whitespace -/

theorem skip_cons {c : Char} (h : isSpace c = false) (s : List Char) : skip (c :: s) = c :: s := by
  simp [skip, h]

theorem skip_append_of_space : ∀ {ws : List Char}, (∀ c ∈ ws, isSpace c = true) →
    ∀ s : List Char, skip (ws ++ s) = skip s
  | [], _, _ => rfl
  | c :: ws, h, s => by
    rw [List.cons_append, skip, List.dropWhile_cons_of_pos (h c List.mem_cons_self)]
    exact skip_append_of_space (fun c' hc' => h c' (List.mem_cons_of_mem c hc')) s

theorem isSpace_of_mem_newline (f : TextFormat) (indent : Nat) :
    ∀ c ∈ (f.newline indent).toList, isSpace c = true := by
  intro c hc
  unfold TextFormat.newline at hc
  split at hc
  · rw [String.toList_append, String.toList_join, List.mem_append] at hc
    rcases hc with hc | hc
    · obtain rfl : c = '\n' := by simpa using hc
      rfl
    · obtain ⟨s, hs, hc⟩ := List.mem_flatMap.mp hc
      obtain rfl := List.eq_of_mem_replicate hs
      obtain rfl : c = ' ' := by simpa using hc
      rfl
  · simp at hc

theorem skip_newline (f : TextFormat) (indent : Nat) (s : List Char) :
    skip ((f.newline indent).toList ++ s) = skip s :=
  skip_append_of_space (isSpace_of_mem_newline f indent) s

/-- A value is read the same after any whitespace. -/
theorem value?_congr {d : Dialect} {s t : List Char} (h : skip s = skip t) :
    ∀ n, value? d n s = value? d n t
  | 0 => rfl
  | n + 1 => by rw [value?, value?, h]

theorem items?_congr {d : Dialect} {bracket : Char} {s t : List Char} (h : skip s = skip t) :
    ∀ n, items? d bracket n s = items? d bracket n t
  | 0 => rfl
  | n + 1 => by rw [items?, items?, value?_congr h]

theorem fields?_congr {d : Dialect} {s t : List Char} (h : skip s = skip t) :
    ∀ n, fields? d n s = fields? d n t
  | 0 => rfl
  | n + 1 => by rw [fields?, fields?, h]

/-! ### Numbers -/

/-- A text that does not go on with a number. -/
def Stops (s : List Char) : Prop :=
  ∀ c ∈ s.head?, c.isDigit = false ∧ c ≠ '.' ∧ c ≠ 'e' ∧ c ≠ 'E'

theorem stops_nil : Stops [] := nofun

theorem stops_cons {c : Char} (h : c.isDigit = false ∧ c ≠ '.' ∧ c ≠ 'e' ∧ c ≠ 'E')
    (s : List Char) : Stops (c :: s) := by
  rintro c' ⟨⟩
  exact h

theorem digits?_append {rest : List Char} (hrest : Stops rest) {ds : List Char} (hne : ds ≠ [])
    (hds : ∀ c ∈ ds, c.isDigit = true) : digits? (ds ++ rest) = some (ds, rest) := by
  have htake : rest.takeWhile Char.isDigit = [] := by
    cases rest with
    | nil => rfl
    | cons c rest => simp [(hrest c rfl).1]
  have hdrop : rest.dropWhile Char.isDigit = rest := by
    cases rest with
    | nil => rfl
    | cons c rest => simp [(hrest c rfl).1]
  rw [digits?, List.takeWhile_append_of_pos hds, List.dropWhile_append_of_pos hds, htake, hdrop,
    List.append_nil]
  cases ds with
  | nil => exact absurd rfl hne
  | cons => rfl

/-- The digits of a positive number do not begin with zero. -/
theorem head?_toDigits (n : Nat) (h : 0 < n) : (Nat.toDigits 10 n).head? ≠ some '0' := by
  induction n using Nat.strongRecOn with
  | ind n ih =>
    by_cases hn : n < 10
    · have hdigit : ∀ n < 10, 0 < n → Nat.digitChar n ≠ '0' := by decide
      rw [Nat.toDigits_of_lt_base hn]
      simpa using hdigit n hn h
    · rw [Nat.toDigits_of_base_le (by decide) (Nat.not_lt.mp hn)]
      have hpos : 0 < n / 10 := by omega
      have ih := ih (n / 10) (by omega) hpos
      rw [List.head?_append]
      cases hhead : (Nat.toDigits 10 (n / 10)).head? with
      | none => exact absurd (List.head?_eq_none_iff.mp hhead) Nat.toDigits_ne_nil
      | some c =>
        rw [hhead] at ih
        exact ih

theorem whole?_toDigits (n : Nat) {rest : List Char} (h : Stops rest) :
    whole? (Nat.toDigits 10 n ++ rest) = some (Nat.toDigits 10 n, rest) := by
  have hdigits := digits?_append h (Nat.toDigits_ne_nil (n := n) (b := 10))
    fun c hc => Nat.isDigit_of_mem_toDigits (by decide) (by decide) hc
  rw [whole?, hdigits]
  split
  · next c ds rest' heq =>
    have hn : Nat.toDigits 10 n = '0' :: c :: ds := (Prod.mk.inj (Option.some.inj heq)).1
    rcases Nat.eq_zero_or_pos n with rfl | hpos
    · rw [Nat.toDigits_zero] at hn
      cases hn
    · exact absurd (by rw [hn]; rfl) (head?_toDigits n hpos)
  · rfl

theorem unsigned?_toDigits (n : Nat) {rest : List Char} (h : Stops rest) :
    unsigned? (Nat.toDigits 10 n ++ rest) = some ((n, 0), rest) := by
  have hfraction : fraction? rest = some ([], rest) := by
    cases rest with
    | nil => rfl
    | cons c rest =>
      have hc := (h c rfl).2.1
      rw [fraction?]
      rintro rest' ⟨⟩
      exact hc rfl
  have hexponent : exponent? rest = some (0, rest) := by
    cases rest with
    | nil => rfl
    | cons c rest =>
      obtain ⟨-, -, he, hE⟩ := h c rfl
      rw [exponent?]
      · rintro rest' ⟨⟩
        exact he rfl
      · rintro rest' ⟨⟩
        exact hE rfl
  rw [unsigned?, whole?_toDigits n h]
  simp [hfraction, hexponent]

theorem exists_digit_cons (n : Nat) :
    ∃ c ds, Nat.toDigits 10 n = c :: ds ∧ c.isDigit = true := by
  cases h : Nat.toDigits 10 n with
  | nil => exact absurd h Nat.toDigits_ne_nil
  | cons c ds =>
    have hc : c ∈ Nat.toDigits 10 n := by
      rw [h]
      exact List.mem_cons_self
    exact ⟨c, ds, rfl, Nat.isDigit_of_mem_toDigits (by decide) (by decide) hc⟩

/-- A text that begins with a digit or a minus is a number. -/
theorem literal?_of_numeric {c : Char} (h : c.isDigit = true ∨ c = '-') (s : List Char) :
    literal? (c :: s) = number? (c :: s) := by
  have hc : c ≠ 't' ∧ c ≠ 'f' ∧ c ≠ 'n' := by
    refine ⟨?_, ?_, ?_⟩ <;> (rintro rfl; revert h; decide)
  rw [literal?]
  · rintro rest ⟨⟩
    exact hc.1 rfl
  · rintro rest ⟨⟩
    exact hc.2.1 rfl
  · rintro rest ⟨⟩
    exact hc.2.2 rfl

theorem number?_digits (n : Nat) {rest : List Char} (h : Stops rest) :
    number? (Nat.toDigits 10 n ++ rest) = some (.number n 0, rest) := by
  obtain ⟨c, ds, hds, hc⟩ := exists_digit_cons n
  have hunsigned := unsigned?_toDigits n h
  rw [hds, List.cons_append] at hunsigned ⊢
  rw [number?, hunsigned]
  · rfl
  · rintro rest' ⟨⟩
    exact absurd hc (by decide)

/-- The text of an integer begins with a digit or a minus, and it is read back. -/
theorem exists_numeric_cons (i : Int) {rest : List Char} (h : Stops rest) :
    ∃ c s, (toString i).toList ++ rest = c :: s ∧ (c.isDigit = true ∨ c = '-')
      ∧ number? (c :: s) = some (.number i 0, rest) := by
  rw [Int.toString_eq_repr, Int.repr_eq_if]
  split
  · next hi =>
    obtain ⟨c, ds, hds, hc⟩ := exists_digit_cons i.toNat
    have hnumber := number?_digits i.toNat h
    rw [Nat.toList_repr]
    rw [hds] at hnumber ⊢
    refine ⟨c, ds ++ rest, rfl, .inl hc, ?_⟩
    rw [Int.toNat_of_nonneg hi] at hnumber
    exact hnumber
  · next hi =>
    have hunsigned := unsigned?_toDigits (-i).toNat h
    refine ⟨'-', Nat.toDigits 10 (-i).toNat ++ rest, ?_, .inr rfl, ?_⟩
    · rw [String.toList_append, Nat.toList_repr]
      rfl
    · have hnat : -((-i).toNat : Int) = i := by omega
      rw [number?, hunsigned]
      simp only [Option.map_some, hnat]

/-! ### Beginnings and ends -/

theorem skip_skip : ∀ s : List Char, skip (skip s) = skip s
  | [] => rfl
  | c :: s => by
    cases hc : isSpace c with
    | false => rw [skip_cons hc, skip_cons hc]
    | true =>
      have hs : skip (c :: s) = skip s := by
        rw [skip, List.dropWhile_cons_of_pos hc, skip]
      rw [hs, skip_skip s]

theorem stops_append_of_space {ws : List Char} (h : ∀ c ∈ ws, isSpace c = true) {s : List Char}
    (hs : Stops s) : Stops (ws ++ s) := by
  cases ws with
  | nil => exact hs
  | cons c ws =>
    refine stops_cons ?_ (ws ++ s)
    have hc : isSpace c = true := h c List.mem_cons_self
    refine ⟨?_, ?_, ?_, ?_⟩
    · simp only [isSpace, Bool.or_eq_true, decide_eq_true_eq] at hc
      rcases hc with ((rfl | rfl) | rfl) | rfl <;> rfl
    · rintro rfl
      cases hc
    · rintro rfl
      cases hc
    · rintro rfl
      cases hc

/-- What may stand at the beginning of a value. -/
def Begins (s : List Char) : Prop :=
  ∃ c t, s = c :: t ∧ isSpace c = false ∧ c ≠ ']' ∧ c ≠ ')'

theorem Begins.skip {s : List Char} (h : Begins s) : skip s = s := by
  obtain ⟨c, t, rfl, hc, -⟩ := h
  exact skip_cons hc t

theorem Begins.append {s : List Char} (h : Begins s) (t : List Char) : Begins (s ++ t) := by
  obtain ⟨c, s, rfl, hc⟩ := h
  exact ⟨c, s ++ t, rfl, hc⟩

theorem begins_of_numeric {c : Char} (h : c.isDigit = true ∨ c = '-') (s : List Char) :
    Begins (c :: s) := by
  refine ⟨c, s, rfl, ?_, ?_, ?_⟩
  · rw [← Bool.not_eq_true, isSpace]
    simp only [Bool.or_eq_true, decide_eq_true_eq]
    rintro (((rfl | rfl) | rfl) | rfl) <;> revert h <;> decide
  · rintro rfl
    revert h
    decide
  · rintro rfl
    revert h
    decide

theorem begins_quoted (s : String) : Begins (quoted s).toList :=
  ⟨'"', _, toList_quoted s, rfl, by decide, by decide⟩

theorem begins_scalar (f : TextFormat) (x : Scalar) : Begins (f.scalar x).toList := by
  cases x with
  | string s => exact begins_quoted s
  | integer i =>
    obtain ⟨c, s, hcs, hc, -⟩ := exists_numeric_cons i stops_nil
    rw [List.append_nil] at hcs
    rw [TextFormat.scalar, hcs]
    exact begins_of_numeric hc s
  | unsigned n =>
    obtain ⟨c, ds, hds, hc⟩ := exists_digit_cons n
    rw [TextFormat.scalar, Nat.toString_eq_repr, Nat.toList_repr, hds]
    exact begins_of_numeric (.inl hc) ds
  | boolean b =>
    cases b
    · exact ⟨'f', ['a', 'l', 's', 'e'], by simp [TextFormat.scalar], rfl, by decide, by decide⟩
    · exact ⟨'t', ['r', 'u', 'e'], by simp [TextFormat.scalar], rfl, by decide, by decide⟩
  | simple tag =>
    rw [TextFormat.scalar]
    split
    · exact begins_quoted tag
    · exact ⟨'<', _, by simp; rfl, rfl, by decide, by decide⟩

/-- The text of a document begins with a character of its own. -/
theorem begins_text (f : TextFormat) (indent : Nat) (v : Value) :
    Begins (v.text f indent).toList := by
  cases v with
  | leaf x => exact begins_scalar f x
  | object fs =>
    exact ⟨'\x7b', _, by simp [Value.text, TextFormat.opener]; rfl, rfl, by decide, by decide⟩
  | array ts =>
    exact ⟨'[', _, by simp [Value.text, TextFormat.opener]; rfl, rfl, by decide, by decide⟩
  | tuple ts =>
    cases hd : f.dialect with
    | json =>
      exact ⟨'[', _, by simp [Value.text, TextFormat.opener, hd]; rfl, rfl, by decide, by decide⟩
    | yojson =>
      exact ⟨'(', _, by simp [Value.text, TextFormat.opener, hd]; rfl, rfl, by decide, by decide⟩
  | variant tag v =>
    cases hd : f.dialect with
    | json =>
      exact ⟨'[', _, by simp [Value.text, TextFormat.variantStart, hd]; rfl, rfl, by decide,
        by decide⟩
    | yojson =>
      exact ⟨'<', _, by simp [Value.text, TextFormat.variantStart, hd]; rfl, rfl, by decide,
        by decide⟩

theorem Begins.exists_succ {s : List Char} (h : Begins s) {n : Nat} (hn : s.length ≤ n) :
    ∃ m, n = m + 1 := by
  obtain ⟨c, t, rfl, -⟩ := h
  exact Nat.exists_eq_succ_of_ne_zero (Nat.ne_of_gt (Nat.lt_of_lt_of_le (Nat.succ_pos _) hn))

/-! ### Scalars -/

theorem value?_quoted {d : Dialect} (s : String) (n : Nat) (rest : List Char) :
    value? d (n + 1) ((quoted s).toList ++ rest) = some (.leaf (.string s), rest) := by
  have hstring := string?_quoted s rest
  rw [toList_quoted, List.cons_append, value?, skip_cons rfl]
  simp [hstring]

/-- A value that begins with no bracket and no quote is a literal. -/
theorem value?_of_literal {d : Dialect} {c : Char} (hspace : isSpace c = false)
    (h : c ≠ '"' ∧ c ≠ '\x7b' ∧ c ≠ '[' ∧ c ≠ '(' ∧ c ≠ '<') (s : List Char) (n : Nat) :
    value? d (n + 1) (c :: s) = (literal? (c :: s)).map fun (x, rest) => (.leaf x, rest) := by
  obtain ⟨h₁, h₂, h₃, h₄, h₅⟩ := h
  rw [value?, skip_cons hspace]
  split
  · next heq => exact absurd (List.cons.inj heq).1 h₁
  · next heq => exact absurd (List.cons.inj heq).1 h₂
  · next heq => exact absurd (List.cons.inj heq).1 h₃
  · next heq => exact absurd (List.cons.inj heq).1 h₄
  · next heq => exact absurd (List.cons.inj heq).1 h₅
  · rfl

theorem value?_numeric {d : Dialect} {c : Char} {s rest : List Char} {i : Int}
    (hc : c.isDigit = true ∨ c = '-') (h : number? (c :: s) = some (.number i 0, rest)) (n : Nat) :
    value? d (n + 1) (c :: s) = some (.leaf (.number i 0), rest) := by
  obtain ⟨_, _, ⟨⟩, hspace, -⟩ := begins_of_numeric hc s
  have hliteral := literal?_of_numeric hc s
  rw [value?_of_literal hspace, hliteral, h]
  · rfl
  · refine ⟨?_, ?_, ?_, ?_, ?_⟩ <;> (rintro rfl; revert hc; decide)

theorem value?_scalar (f : TextFormat) (x : Scalar) {rest : List Char} (hrest : Stops rest) {n : Nat}
    (hn : (f.scalar x).toList.length ≤ n) :
    value? f.dialect n ((f.scalar x).toList ++ rest)
      = some (.leaf (x.literal f.dialect), rest) := by
  obtain ⟨_, _, hbegin, -⟩ := begins_scalar f x
  obtain _ | n := n
  · rw [hbegin] at hn
    cases hn
  cases x with
  | string s => exact value?_quoted s n rest
  | integer i =>
    obtain ⟨c, s, hcs, hc, hnumber⟩ := exists_numeric_cons i hrest
    rw [TextFormat.scalar, hcs]
    exact value?_numeric hc hnumber n
  | unsigned m =>
    obtain ⟨c, s, hcs, hc, hnumber⟩ := exists_numeric_cons m hrest
    rw [TextFormat.scalar, show toString m = toString (m : Int) from rfl, hcs]
    exact value?_numeric hc hnumber n
  | boolean b =>
    cases b
    · have htext : (f.scalar (.boolean false)).toList ++ rest
          = 'f' :: 'a' :: 'l' :: 's' :: 'e' :: rest := by
        simp [TextFormat.scalar]
      rw [htext, value?_of_literal rfl (by decide)]
      rfl
    · have htext : (f.scalar (.boolean true)).toList ++ rest
          = 't' :: 'r' :: 'u' :: 'e' :: rest := by
        simp [TextFormat.scalar]
      rw [htext, value?_of_literal rfl (by decide)]
      rfl
  | simple tag =>
    rw [TextFormat.scalar] at hn ⊢
    cases hd : f.dialect with
    | json =>
      simp only
      exact value?_quoted tag n rest
    | yojson =>
      have htext : ("<" ++ quoted tag ++ ">").toList ++ rest
          = '<' :: '"' :: ((escape tag).toList ++ '"' :: '>' :: rest) := by
        simp
      obtain _ | n := n
      · simp [hd] at hn
      simp only
      rw [htext, value?, skip_cons rfl]
      simp only [reduceCtorEq, if_false]
      rw [variant?, skip_cons rfl]
      simp only [string?_quoted]
      rw [skip_cons rfl]
      rfl

/-! ### Containers -/

/-- An array is read from its elements, after a line break. -/
theorem value?_array {d : Dialect} {ws s rest : List Char} {ts : List (Tree Literal)} {n : Nat}
    (hws : ∀ c ∈ ws, isSpace c = true) (hs : Begins s)
    (h : items? d ']' n s = some (ts, rest)) :
    value? d (n + 1) ('[' :: (ws ++ s)) = some (.array ts, rest) := by
  have hskip : skip (ws ++ s) = s := (skip_append_of_space hws s).trans hs.skip
  obtain ⟨c, t, heq, -, hc, -⟩ := hs
  rw [value?, skip_cons rfl]
  simp only [hskip]
  split
  · exact absurd (List.cons.inj heq).1.symm hc
  · rw [h]
    rfl

/-- A tuple is read from its elements, after a line break. -/
theorem value?_tuple {ws s rest : List Char} {ts : List (Tree Literal)} {n : Nat}
    (hws : ∀ c ∈ ws, isSpace c = true) (hs : Begins s)
    (h : items? .yojson ')' n s = some (ts, rest)) :
    value? .yojson (n + 1) ('(' :: (ws ++ s)) = some (.tuple ts, rest) := by
  have hskip : skip (ws ++ s) = s := (skip_append_of_space hws s).trans hs.skip
  obtain ⟨c, t, heq, -, -, hc⟩ := hs
  rw [value?, skip_cons rfl]
  simp only [hskip, reduceCtorEq, if_false]
  split
  · exact absurd (List.cons.inj heq).1.symm hc
  · rw [h]
    rfl

/-- An object is read from its fields, after a line break. -/
theorem value?_object {d : Dialect} {ws s rest : List Char} {name : String}
    {fs : List (String × Tree Literal)} {n : Nat} (hws : ∀ c ∈ ws, isSpace c = true)
    (h : fields? d n ((quoted name).toList ++ s) = some (fs, rest)) :
    value? d (n + 1) ('\x7b' :: (ws ++ ((quoted name).toList ++ s))) = some (.object fs, rest) := by
  have hskip := (skip_append_of_space hws _).trans ((begins_quoted name).append s).skip
  rw [value?, skip_cons rfl]
  simp only [hskip]
  split
  · next heq => simp at heq
  · rw [h]
    rfl

/-- A variant in the plain dialect is the pair of its tag and its argument. -/
theorem value?_pair {d : Dialect} {tag : String} {s rest : List Char} {t : Tree Literal} {n : Nat}
    (h : value? d n s = some (t, ']' :: rest)) :
    value? d (n + 3) ('[' :: ((quoted tag).toList ++ ',' :: s))
      = some (.array [.leaf (.string tag), t], rest) := by
  have hsecond : items? d ']' (n + 1) s = some ([t], rest) := by
    rw [items?, h]
    simp only
    rw [skip_cons rfl]
    simp
  have hitems : items? d ']' (n + 2) ((quoted tag).toList ++ ',' :: s)
      = some ([.leaf (.string tag), t], rest) := by
    rw [items?, value?_quoted]
    simp only
    rw [skip_cons rfl]
    simp only [if_true, hsecond]
    rfl
  have hnil : ∀ c ∈ ([] : List Char), isSpace c = true := nofun
  have harray := value?_array hnil ((begins_quoted tag).append _) hitems
  rw [List.nil_append] at harray
  exact harray

/-- A variant in its own brackets. -/
theorem value?_variant {tag : String} {s rest : List Char} {t : Tree Literal} {n : Nat}
    (h : value? .yojson n s = some (t, '>' :: rest)) :
    value? .yojson (n + 2) ('<' :: ((quoted tag).toList ++ ':' :: s))
      = some (.variant tag t, rest) := by
  have hstring := string?_quoted tag (':' :: s)
  have htext : (quoted tag).toList ++ ':' :: s = '"' :: ((escape tag).toList ++ '"' :: ':' :: s) := by
    simp
  rw [value?, skip_cons rfl]
  simp only [reduceCtorEq, if_false]
  rw [htext, variant?, skip_cons rfl]
  simp only [hstring]
  rw [skip_cons rfl]
  simp only [h]
  rw [skip_cons rfl]
  rfl

/-- A field is read from its name and its value. -/
theorem fields?_quoted {d : Dialect} (name : String) (s : List Char) (n : Nat) :
    fields? d (n + 1) ((quoted name).toList ++ ':' :: s)
      = match value? d n s with
        | none => none
        | some (t, rest) =>
          match skip rest with
          | ',' :: rest => (fields? d n rest).map fun (fs, rest) => ((name, t) :: fs, rest)
          | '\x7d' :: rest => some ([(name, t)], rest)
          | _ => none := by
  have hstring := string?_quoted name (':' :: s)
  have htext : (quoted name).toList ++ ':' :: s = '"' :: ((escape name).toList ++ '"' :: ':' :: s) := by
    simp
  rw [htext, fields?, skip_cons rfl]
  simp only [hstring]
  rw [skip_cons rfl]
  rfl

/-! ### Texts as lists of characters -/

/-- The space after a comma or colon that is not followed by a line break. -/
def gap (f : TextFormat) : List Char :=
  if f.pretty then [' '] else []

theorem toList_ite_space (f : TextFormat) : (if f.pretty then " " else "").toList = gap f := by
  unfold gap
  split <;> simp

theorem isSpace_of_mem_gap (f : TextFormat) : ∀ c ∈ gap f, isSpace c = true := by
  intro c hc
  unfold gap at hc
  split at hc
  · obtain rfl := List.mem_singleton.mp hc
    rfl
  · cases hc

theorem toList_itemsText_cons (f : TextFormat) (indent index : Nat) (v : Value) (vs : List Value) :
    (Value.itemsText f indent (index + 1) (v :: vs)).toList = ',' :: ((f.newline indent).toList
      ++ ((v.text f indent).toList ++ (Value.itemsText f indent (index + 1 + 1) vs).toList)) := by
  simp [Value.itemsText, Value.comma]

theorem toList_fieldStart (f : TextFormat) (name : String) :
    (f.fieldStart name).toList = (quoted name).toList ++ ':' :: gap f := by
  unfold TextFormat.fieldStart gap
  split <;> simp

theorem toList_fieldsText_cons (f : TextFormat) (indent index : Nat) (name : String) (v : Value)
    (fs : List (String × Value)) :
    (Value.fieldsText f indent (index + 1) ((name, v) :: fs)).toList
      = ',' :: ((f.newline indent).toList ++ ((quoted name).toList ++ ':' :: (gap f
        ++ ((v.text f indent).toList ++ (Value.fieldsText f indent (index + 1 + 1) fs).toList)))) := by
  simp [Value.fieldsText, Value.comma, toList_fieldStart]

/-- What stands after an element: the next one after a comma, or whitespace and the bracket. -/
theorem stops_itemsText (f : TextFormat) (indent index : Nat) (ts : List Value) {ws : List Char}
    (hws : ∀ c ∈ ws, isSpace c = true) {bracket : Char} (hbracket : bracket = ']' ∨ bracket = ')')
    (rest : List Char) :
    Stops ((Value.itemsText f indent (index + 1) ts).toList ++ (ws ++ bracket :: rest)) := by
  cases ts with
  | nil =>
    refine stops_append_of_space hws (stops_cons ?_ rest)
    rcases hbracket with rfl | rfl <;> decide
  | cons v ts =>
    rw [toList_itemsText_cons]
    exact stops_cons (by decide) _

/-- What stands after a field. -/
theorem stops_fieldsText (f : TextFormat) (indent index : Nat) (fs : List (String × Value))
    {ws : List Char} (hws : ∀ c ∈ ws, isSpace c = true) (rest : List Char) :
    Stops ((Value.fieldsText f indent (index + 1) fs).toList ++ (ws ++ '\x7d' :: rest)) := by
  cases fs with
  | nil => exact stops_append_of_space hws (stops_cons (by decide) rest)
  | cons x fs =>
    rw [toList_fieldsText_cons]
    exact stops_cons (by decide) _

/-- The text of a container that has items, in front of `rest`. -/
def bracketed (f : TextFormat) (indent : Nat) (opening closing : Char) (v : Value) (vs : List Value)
    (rest : List Char) : List Char :=
  opening :: ((f.newline (indent + 1)).toList ++ ((Value.text f (indent + 1) v).toList
    ++ ((Value.itemsText f (indent + 1) (0 + 1) vs).toList
      ++ ((f.newline indent).toList ++ closing :: rest))))

section Text

variable {f : TextFormat}

theorem toList_text_object (indent : Nat) (name : String) (v : Value) (fs : List (String × Value))
    (rest : List Char) : (Value.text f indent (.object ((name, v) :: fs))).toList ++ rest
      = '\x7b' :: ((f.newline (indent + 1)).toList ++ ((quoted name).toList ++ ':' :: (gap f
        ++ ((Value.text f (indent + 1) v).toList ++ ((Value.fieldsText f (indent + 1) (0 + 1) fs).toList
          ++ ((f.newline indent).toList ++ '\x7d' :: rest)))))) := by
  simp [Value.text, Value.fieldsText, Value.comma, TextFormat.opener, TextFormat.closer,
    toList_fieldStart]

theorem toList_text_array (indent : Nat) (v : Value) (vs : List Value) (rest : List Char) :
    (Value.text f indent (.array (v :: vs))).toList ++ rest = bracketed f indent '[' ']' v vs rest := by
  simp [bracketed, Value.text, Value.itemsText, Value.comma, TextFormat.opener, TextFormat.closer]

theorem text_tuple_json (hd : f.dialect = .json) (indent : Nat) (vs : List Value) :
    Value.text f indent (.tuple vs) = Value.text f indent (.array vs) := by
  simp [Value.text, TextFormat.opener, TextFormat.closer, hd]

theorem toList_text_tuple_yojson (hd : f.dialect = .yojson) (indent : Nat) (v : Value)
    (vs : List Value) (rest : List Char) : (Value.text f indent (.tuple (v :: vs))).toList ++ rest
      = bracketed f indent '(' ')' v vs rest := by
  simp [bracketed, Value.text, Value.itemsText, Value.comma, TextFormat.opener, TextFormat.closer, hd]

theorem toList_text_variant_json (hd : f.dialect = .json) (indent : Nat) (tag : String) (v : Value)
    (rest : List Char) : (Value.text f indent (.variant tag v)).toList ++ rest
      = '[' :: ((quoted tag).toList ++ ',' :: (gap f
        ++ ((Value.text f indent v).toList ++ ']' :: rest))) := by
  simp [Value.text, TextFormat.variantStart, TextFormat.closer, hd, toList_ite_space]

theorem toList_text_variant_yojson (hd : f.dialect = .yojson) (indent : Nat) (tag : String) (v : Value)
    (rest : List Char) : (Value.text f indent (.variant tag v)).toList ++ rest
      = '<' :: ((quoted tag).toList ++ ':' :: (gap f
        ++ ((Value.text f indent v).toList ++ '>' :: rest))) := by
  simp [Value.text, TextFormat.variantStart, TextFormat.closer, hd, toList_ite_space]

end Text

/-- The items of a container are shorter than the container by its brackets. -/
theorem length_items_lt {f : TextFormat} {indent n : Nat} {opening closing : Char} {v : Value}
    {vs : List Value} {text : List Char}
    (htext : ∀ rest, text ++ rest = bracketed f indent opening closing v vs rest)
    (hn : text.length ≤ n + 1) :
    (Value.text f (indent + 1) v).toList.length
      + (Value.itemsText f (indent + 1) (0 + 1) vs).toList.length < n := by
  have hlength := congrArg List.length (htext [])
  simp only [bracketed, List.length_append, List.length_cons, List.length_nil] at hlength
  omega

/-! ### Whole documents -/

/-- The text of a document is read back, whatever stands after it. -/
def ReadsBack (f : TextFormat) (v : Value) : Prop :=
  ∀ (indent : Nat) {n : Nat} {rest : List Char}, (v.text f indent).toList.length ≤ n → Stops rest →
    value? f.dialect n ((v.text f indent).toList ++ rest) = some (v.image f.dialect, rest)

/-- The value of a field is read back after its colon. -/
theorem ReadsBack.afterGap {f : TextFormat} {v : Value} (hv : ReadsBack f v) (indent : Nat) {n : Nat}
    {rest : List Char} (hn : (v.text f indent).toList.length ≤ n) (hrest : Stops rest) :
    value? f.dialect n (gap f ++ ((v.text f indent).toList ++ rest))
      = some (v.image f.dialect, rest) := by
  rw [value?_congr (skip_append_of_space (isSpace_of_mem_gap f) _) n]
  exact hv indent hn hrest

/-- The fields of an object are read back up to the bracket. -/
theorem fields?_text {f : TextFormat} {ws : List Char} (hws : ∀ c ∈ ws, isSpace c = true)
    (rest : List Char) (indent : Nat) : ∀ {name : String} {v : Value} {fs : List (String × Value)},
    (∀ field ∈ (name, v) :: fs, ReadsBack f field.2) → ∀ (index : Nat) {n : Nat},
    (Value.text f indent v).toList.length + (Value.fieldsText f indent (index + 1) fs).toList.length < n →
    fields? f.dialect n ((quoted name).toList ++ ':' :: (gap f ++ ((Value.text f indent v).toList
      ++ ((Value.fieldsText f indent (index + 1) fs).toList ++ (ws ++ '\x7d' :: rest)))))
      = some (Value.imageFields f.dialect ((name, v) :: fs), rest)
  | name, v, fs, _, index, 0, hn => by
    cases hn
  | name, v, [], hfs, index, n + 1, hn => by
    have hfirst : ReadsBack f v := hfs _ List.mem_cons_self
    have hv := hfirst.afterGap indent (n := n) (by omega)
      (stops_fieldsText f indent index [] hws rest)
    rw [fields?_quoted, hv]
    simp only [Value.fieldsText, String.toList_empty, List.nil_append]
    rw [skip_append_of_space hws, skip_cons rfl]
    rfl
  | name, v, (name', v') :: fs, hfs, index, n + 1, hn => by
    obtain ⟨hfirst, hothers⟩ : ReadsBack f v ∧ ∀ field ∈ (name', v') :: fs, ReadsBack f field.2 :=
      List.forall_mem_cons.mp hfs
    have hv := hfirst.afterGap indent (n := n) (by omega)
      (stops_fieldsText f indent index ((name', v') :: fs) hws rest)
    rw [toList_fieldsText_cons] at hn hv ⊢
    simp only [List.length_cons, List.length_append] at hn
    have ih := fields?_text hws rest indent hothers (index + 1) (n := n) (by omega)
    rw [fields?_quoted, hv]
    simp only [List.cons_append, List.append_assoc]
    rw [skip_cons rfl]
    simp only
    rw [fields?_congr (skip_newline f indent _), ih]
    rfl

/-- The elements of an array or tuple are read back up to the bracket. -/
theorem items?_text {f : TextFormat} {ws : List Char} (hws : ∀ c ∈ ws, isSpace c = true)
    {bracket : Char} (hbracket : bracket = ']' ∨ bracket = ')') (rest : List Char) (indent : Nat) :
    ∀ {v : Value} {vs : List Value}, (∀ x ∈ v :: vs, ReadsBack f x) → ∀ (index : Nat) {n : Nat},
      (v.text f indent).toList.length + (Value.itemsText f indent (index + 1) vs).toList.length < n →
      items? f.dialect bracket n ((v.text f indent).toList
        ++ ((Value.itemsText f indent (index + 1) vs).toList ++ (ws ++ bracket :: rest)))
        = some (Value.imageItems f.dialect (v :: vs), rest)
  | v, vs, _, index, 0, hn => by
    cases hn
  | v, [], hvs, index, n + 1, hn => by
    have hv := (List.forall_mem_cons.mp hvs).1 indent (n := n) (by omega)
      (stops_itemsText f indent index [] hws hbracket rest)
    have hbracket' : isSpace bracket = false ∧ bracket ≠ ',' := by
      rcases hbracket with rfl | rfl <;> decide
    rw [items?, hv]
    simp only [Value.itemsText, String.toList_empty, List.nil_append]
    rw [skip_append_of_space hws, skip_cons hbracket'.1]
    simp only [if_neg hbracket'.2, if_true]
    rfl
  | v, w :: vs, hvs, index, n + 1, hn => by
    obtain ⟨hfirst, hothers⟩ := List.forall_mem_cons.mp hvs
    have hv := hfirst indent (n := n) (by omega)
      (stops_itemsText f indent index (w :: vs) hws hbracket rest)
    rw [toList_itemsText_cons] at hn hv ⊢
    simp only [List.length_cons, List.length_append] at hn
    have ih := items?_text hws hbracket rest indent hothers (index + 1) (n := n) (by omega)
    rw [items?, hv]
    simp only [List.cons_append, List.append_assoc]
    rw [skip_cons rfl]
    simp only [if_true]
    rw [items?_congr (skip_newline f indent _), ih]
    rfl

section Containers

variable {f : TextFormat} {v : Value} {vs : List Value}

theorem readsBack_object {fs : List (String × Value)} (hfs : ∀ field ∈ fs, ReadsBack f field.2) :
    ReadsBack f (.object fs) := by
  intro indent n rest hn _
  obtain ⟨n, rfl⟩ := (begins_text f indent _).exists_succ hn
  cases fs with
  | nil =>
    have htext : (Value.text f indent (.object [])).toList ++ rest = '\x7b' :: '\x7d' :: rest := by
      simp [Value.text, Value.fieldsText, TextFormat.opener, TextFormat.closer]
    rw [htext, value?, skip_cons rfl]
    rfl
  | cons field fs =>
    obtain ⟨name, v⟩ := field
    have hlength := congrArg List.length (toList_text_object (f := f) indent name v fs [])
    simp only [List.length_append, List.length_cons, List.length_nil] at hlength
    have hfields := fields?_text (isSpace_of_mem_newline f indent) rest (indent + 1) hfs 0
      (n := n) (by omega)
    rw [toList_text_object]
    exact value?_object (isSpace_of_mem_newline f (indent + 1)) hfields

theorem readsBack_array (hvs : ∀ v ∈ vs, ReadsBack f v) : ReadsBack f (.array vs) := by
  intro indent n rest hn _
  obtain ⟨n, rfl⟩ := (begins_text f indent _).exists_succ hn
  cases vs with
  | nil =>
    have htext : (Value.text f indent (.array [])).toList ++ rest = '[' :: ']' :: rest := by
      simp [Value.text, Value.itemsText, TextFormat.opener, TextFormat.closer]
    rw [htext, value?, skip_cons rfl]
    rfl
  | cons v vs =>
    have hitems := items?_text (isSpace_of_mem_newline f indent) (.inl rfl) rest (indent + 1) hvs 0
      (n := n) (length_items_lt (toList_text_array indent v vs) hn)
    rw [toList_text_array]
    exact value?_array (isSpace_of_mem_newline f (indent + 1))
      ((begins_text f (indent + 1) v).append _) hitems

/-- A tuple in the plain dialect is an array. -/
theorem readsBack_tuple_json (hd : f.dialect = .json) (hvs : ∀ v ∈ vs, ReadsBack f v) :
    ReadsBack f (.tuple vs) := by
  intro indent n rest
  have himage : Value.image f.dialect (.tuple vs) = Value.image f.dialect (.array vs) := by
    rw [hd]
    rfl
  rw [text_tuple_json hd, himage]
  exact readsBack_array hvs indent

theorem readsBack_tuple_yojson (hd : f.dialect = .yojson) (hvs : ∀ v ∈ vs, ReadsBack f v) :
    ReadsBack f (.tuple vs) := by
  intro indent n rest hn _
  obtain ⟨n, rfl⟩ := (begins_text f indent _).exists_succ hn
  cases vs with
  | nil =>
    have htext : (Value.text f indent (.tuple [])).toList ++ rest = '(' :: ')' :: rest := by
      simp [Value.text, Value.itemsText, TextFormat.opener, TextFormat.closer, hd]
    rw [htext, hd, value?, skip_cons rfl]
    rfl
  | cons v vs =>
    have htext := toList_text_tuple_yojson hd indent v vs
    have hitems := items?_text (isSpace_of_mem_newline f indent) (.inr rfl) rest (indent + 1) hvs 0
      (n := n) (length_items_lt htext hn)
    rw [hd] at hitems
    rw [htext, hd]
    exact value?_tuple (isSpace_of_mem_newline f (indent + 1))
      ((begins_text f (indent + 1) v).append _) hitems

theorem readsBack_variant_json (hd : f.dialect = .json) (tag : String) (hv : ReadsBack f v) :
    ReadsBack f (.variant tag v) := by
  intro indent n rest hn _
  have hquoted : 2 ≤ (quoted tag).toList.length := by
    simp
  have hlength := congrArg List.length (toList_text_variant_json hd indent tag v [])
  simp only [List.length_append, List.length_cons, List.length_nil] at hlength
  obtain ⟨k, rfl⟩ : ∃ k, n = k + 3 := ⟨n - 3, by omega⟩
  have hargument := hv.afterGap indent (n := k) (by omega) (stops_cons (c := ']') (by decide) rest)
  rw [hd] at hargument
  rw [toList_text_variant_json hd, hd]
  exact value?_pair hargument

theorem readsBack_variant_yojson (hd : f.dialect = .yojson) (tag : String) (hv : ReadsBack f v) :
    ReadsBack f (.variant tag v) := by
  intro indent n rest hn _
  have hlength := congrArg List.length (toList_text_variant_yojson hd indent tag v [])
  simp only [List.length_append, List.length_cons, List.length_nil] at hlength
  obtain ⟨k, rfl⟩ : ∃ k, n = k + 2 := ⟨n - 2, by omega⟩
  have hargument := hv.afterGap indent (n := k) (by omega) (stops_cons (c := '>') (by decide) rest)
  rw [hd] at hargument
  rw [toList_text_variant_yojson hd, hd]
  exact value?_variant hargument

end Containers

theorem value?_text (f : TextFormat) (v : Value) : ReadsBack f v := by
  induction v using Tree.parts_induction with
  | leaf x => exact fun _ _ _ hn hrest => value?_scalar f x hrest hn
  | object fs ih => exact readsBack_object ih
  | array vs ih => exact readsBack_array ih
  | tuple vs ih =>
    cases hd : f.dialect with
    | json => exact readsBack_tuple_json hd ih
    | yojson => exact readsBack_tuple_yojson hd ih
  | variant tag v ih =>
    cases hd : f.dialect with
    | json => exact readsBack_variant_json hd tag ih
    | yojson => exact readsBack_variant_yojson hd tag ih

end Reader

end SyntaxExport
