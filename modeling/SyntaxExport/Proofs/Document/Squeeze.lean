import SyntaxExport.Proofs.Document.Literals
import SyntaxExport.Proofs.Document.Truncation

/-!
# Text without its layout

Pretty text is compact text with blanks between its tokens. A reader of either text stands outside or
inside of a string literal, and inside it may have just read a backslash (`Place`). `squeeze` drops
the blanks that are read outside, so every blank of a name or of a file name stays, and the literals
stay as they are (`literals_squeeze`). Each text that a writer hands to its sink begins and ends
outside, so texts can be squeezed one by one (`Squeezes.append`).
-/

namespace SyntaxExport

open StringLiteral (Spelling Spells spells_escape toList_quoted)

/-- Where a reader of a text stands. -/
inductive Place where
  | outside
  /-- Inside a string literal. -/
  | inside
  /-- Inside a string literal, after a backslash. -/
  | escaped
  deriving DecidableEq, Repr

namespace Place

/-- Where a reader stands after one more character. -/
def next : Place → Char → Place
  | .outside, c => if c = '"' then .inside else .outside
  | .inside, c => if c = '"' then .outside else if c = '\\' then .escaped else .inside
  | .escaped, _ => .inside

/-- Where a reader stands after a text. -/
def after (p : Place) (s : List Char) : Place :=
  s.foldl next p

@[simp] theorem after_nil (p : Place) : p.after [] = p :=
  rfl

@[simp] theorem after_cons (p : Place) (c : Char) (s : List Char) :
    p.after (c :: s) = (p.next c).after s :=
  rfl

theorem after_append (p : Place) (s t : List Char) : p.after (s ++ t) = (p.after s).after t :=
  List.foldl_append

end Place

/-- The characters that lay out a text. -/
def isBlank (c : Char) : Bool :=
  c == ' ' || c == '\n'

/-- A text without the blanks outside of its literals, read from a place. -/
def squeezeFrom : Place → List Char → List Char
  | _, [] => []
  | p, c :: s =>
    if p = .outside ∧ isBlank c then squeezeFrom (p.next c) s else c :: squeezeFrom (p.next c) s

/-- The rest of the literal in which a reader stands, and the literals after it. -/
def literalsFrom : Place → List Char → List Char × List (List Char)
  | _, [] => ([], [])
  | .outside, c :: s =>
    if c = '"' then ([], (c :: (literalsFrom .inside s).1) :: (literalsFrom .inside s).2)
    else literalsFrom .outside s
  | p, c :: s => (c :: (literalsFrom (p.next c) s).1, (literalsFrom (p.next c) s).2)

/-- A text without the spaces and line breaks outside of its string literals. -/
def squeeze (s : String) : String :=
  String.ofList (squeezeFrom .outside s.toList)

/-- The string literals of a text in order, with their quotes and escapes. -/
def literals (s : String) : List String :=
  (literalsFrom .outside s.toList).2.map String.ofList

theorem squeezeFrom_append : ∀ (p : Place) (s t : List Char),
    squeezeFrom p (s ++ t) = squeezeFrom p s ++ squeezeFrom (p.after s) t
  | _, [], _ => rfl
  | p, c :: s, t => by
    have ih := squeezeFrom_append (p.next c) s t
    rw [List.cons_append, squeezeFrom, squeezeFrom, ih, Place.after_cons]
    split <;> rfl

/-- Squeezing a text leaves its literals as they are. -/
theorem literalsFrom_squeezeFrom : ∀ (p : Place) (s : List Char),
    literalsFrom p (squeezeFrom p s) = literalsFrom p s
  | _, [] => rfl
  | .outside, c :: s => by
    have houtside := literalsFrom_squeezeFrom .outside s
    have hinside := literalsFrom_squeezeFrom .inside s
    by_cases hquote : c = '"'
    · subst hquote
      have hkept : squeezeFrom .outside ('"' :: s) = '"' :: squeezeFrom .inside s := rfl
      rw [hkept, literalsFrom, literalsFrom, hinside, if_pos rfl, if_pos rfl]
    · have hnext : Place.next .outside c = .outside := if_neg hquote
      rw [squeezeFrom, hnext]
      split
      · rw [houtside, literalsFrom, if_neg hquote]
      · rw [literalsFrom, literalsFrom, if_neg hquote, if_neg hquote, houtside]
  | .inside, c :: s => by
    have ih := literalsFrom_squeezeFrom (Place.next .inside c) s
    have hkept : squeezeFrom .inside (c :: s) = c :: squeezeFrom (Place.next .inside c) s :=
      if_neg (fun h => nomatch h.1)
    rw [hkept, literalsFrom, literalsFrom, ih] <;> simp
  | .escaped, c :: s => by
    have ih := literalsFrom_squeezeFrom (Place.next .escaped c) s
    have hkept : squeezeFrom .escaped (c :: s) = c :: squeezeFrom (Place.next .escaped c) s :=
      if_neg (fun h => nomatch h.1)
    rw [hkept, literalsFrom, literalsFrom, ih] <;> simp

theorem literals_squeeze (s : String) : literals (squeeze s) = literals s := by
  rw [literals, squeeze, String.toList_ofList, literalsFrom_squeezeFrom]
  rfl

/-! ### Texts that squeeze to a given one -/

/-- A text that ends outside of its literals, and squeezes to `q`. -/
structure Squeezes (p q : String) : Prop where
  closed : Place.outside.after p.toList = .outside
  squeezed : squeezeFrom .outside p.toList = q.toList

namespace Squeezes

theorem squeeze_eq {p q : String} (h : Squeezes p q) : squeeze p = q := by
  rw [squeeze, h.squeezed, String.ofList_toList]

theorem literals_eq {p q : String} (h : Squeezes p q) : literals p = literals q := by
  rw [← h.squeeze_eq, literals_squeeze]

theorem append {p q p' q' : String} (h : Squeezes p q) (h' : Squeezes p' q') :
    Squeezes (p ++ p') (q ++ q') where
  closed := by
    rw [String.toList_append, Place.after_append, h.closed, h'.closed]
  squeezed := by
    rw [String.toList_append, squeezeFrom_append, h.closed, h.squeezed, h'.squeezed,
      String.toList_append]

theorem empty : Squeezes "" "" :=
  ⟨rfl, rfl⟩

/-- Where the layout has nothing but blanks, there is nothing left. -/
theorem of_blank {p : String} (h : ∀ c ∈ p.toList, isBlank c = true) : Squeezes p "" := by
  have hboth : ∀ s : List Char, (∀ c ∈ s, isBlank c = true) →
      Place.outside.after s = .outside ∧ squeezeFrom .outside s = [] := by
    intro s hs
    induction s with
    | nil => exact ⟨rfl, rfl⟩
    | cons c s ih =>
      have hc : isBlank c = true := hs c List.mem_cons_self
      have hquote : c ≠ '"' := by
        rintro rfl
        cases hc
      have hnext : Place.next .outside c = .outside := if_neg hquote
      have hrest := ih fun c' hc' => hs c' (List.mem_cons_of_mem c hc')
      rw [Place.after_cons, squeezeFrom, hnext, if_pos ⟨rfl, hc⟩]
      exact hrest
  exact ⟨(hboth p.toList h).1, (hboth p.toList h).2⟩

/-- A text without quotes and blanks is squeezed already. -/
theorem of_plain {p : String} (h : ∀ c ∈ p.toList, c ≠ '"' ∧ isBlank c = false) :
    Squeezes p p := by
  have hboth : ∀ s : List Char, (∀ c ∈ s, c ≠ '"' ∧ isBlank c = false) →
      Place.outside.after s = .outside ∧ squeezeFrom .outside s = s := by
    intro s hs
    induction s with
    | nil => exact ⟨rfl, rfl⟩
    | cons c s ih =>
      obtain ⟨hquote, hblank⟩ := hs c List.mem_cons_self
      have hnext : Place.next .outside c = .outside := if_neg hquote
      obtain ⟨hafter, hsqueezed⟩ := ih fun c' hc' => hs c' (List.mem_cons_of_mem c hc')
      rw [Place.after_cons, squeezeFrom, hnext, if_neg (by simp [hblank]), hsqueezed]
      exact ⟨hafter, rfl⟩
  exact ⟨(hboth p.toList h).1, (hboth p.toList h).2⟩

end Squeezes

/-! ### String literals -/

/-- Characters that leave a reader inside of the literal, which keeps them. -/
def StaysInside (s : List Char) : Prop :=
  Place.inside.after s = .inside ∧ squeezeFrom .inside s = s

namespace StaysInside

theorem append {s t : List Char} (hs : StaysInside s) (ht : StaysInside t) :
    StaysInside (s ++ t) := by
  refine ⟨?_, ?_⟩
  · rw [Place.after_append, hs.1, ht.1]
  · rw [squeezeFrom_append, hs.1, hs.2, ht.2]

theorem of_plain {s : List Char} (h : ∀ c ∈ s, c ≠ '"' ∧ c ≠ '\\') : StaysInside s := by
  induction s with
  | nil => exact ⟨rfl, rfl⟩
  | cons c s ih =>
    obtain ⟨hquote, hslash⟩ := h c List.mem_cons_self
    have hc : StaysInside [c] := by
      simp [StaysInside, Place.next, squeezeFrom, hquote, hslash]
    exact hc.append (ih fun c' hc' => h c' (List.mem_cons_of_mem c hc'))

theorem of_digits {s : List Char} {n : Nat} (h : Hex.Digits s n) : StaysInside s := by
  refine of_plain fun c hc => ?_
  obtain ⟨d, hd⟩ := h.exists_digit? c hc
  constructor
  · rintro rfl
    cases hd
  · rintro rfl
    cases hd

/-- Neither a quote nor a backslash in a literal ends it, however they are spelled. -/
theorem of_spelling {u : List Char} {c : Char} (h : Spelling u c) : StaysInside u := by
  have hu : StaysInside ['\\', 'u'] := ⟨rfl, rfl⟩
  cases h with
  | plain hquote hslash => exact of_plain (by simp [hquote, hslash])
  | short => exact ⟨rfl, rfl⟩
  | unicode hdigits => exact hu.append (of_digits hdigits)
  | pair hhigh hlow => exact (hu.append (of_digits hhigh)).append (hu.append (of_digits hlow))

theorem of_spells {t cs : List Char} (h : Spells t cs) : StaysInside t := by
  induction h with
  | nil => exact ⟨rfl, rfl⟩
  | cons hu _ ih => exact (of_spelling hu).append ih

end StaysInside

namespace Squeezes

/-- A literal is kept as it is, blanks and all. -/
theorem quoted (s : String) : Squeezes (quoted s) (quoted s) := by
  obtain ⟨hafter, hsqueezed⟩ := StaysInside.of_spells (spells_escape s)
  have hopen : Place.next .outside '"' = .inside := rfl
  refine ⟨?_, ?_⟩
  · rw [toList_quoted, Place.after_cons, hopen, Place.after_append, hafter]
    rfl
  · rw [toList_quoted, squeezeFrom, hopen, squeezeFrom_append, hafter, hsqueezed]
    rfl

theorem digits (n : Nat) : Squeezes n.repr n.repr := by
  refine of_plain fun c hc => ?_
  rw [Nat.toList_repr] at hc
  have hdigit : c.isDigit = true := Nat.isDigit_of_mem_toDigits (by decide) (by decide) hc
  have hquote : c ≠ '"' := by
    rintro rfl
    cases hdigit
  have hspace : c ≠ ' ' := by
    rintro rfl
    cases hdigit
  have hbreak : c ≠ '\n' := by
    rintro rfl
    cases hdigit
  exact ⟨hquote, by simp [isBlank, hspace, hbreak]⟩

theorem integer (i : Int) : Squeezes (toString i) (toString i) := by
  rw [Int.toString_eq_repr, Int.repr_eq_if]
  split
  · exact digits i.toNat
  · have hsign : Squeezes "-" "-" := ⟨rfl, rfl⟩
    exact hsign.append (digits (-i).toNat)

end Squeezes

/-! ### The texts of calls -/

namespace TextFormat

variable (d : Dialect)

/-- A line break and the indentation after it are blank. -/
theorem squeezes_newline (indent : Nat) :
    Squeezes (newline ⟨d, true⟩ indent) (newline ⟨d, false⟩ indent) := by
  refine Squeezes.of_blank fun c hc => ?_
  rw [newline, if_pos rfl, String.toList_append, String.toList_join, List.mem_append] at hc
  rcases hc with hbreak | hindent
  · obtain rfl : c = '\n' := by simpa using hbreak
    rfl
  · obtain ⟨s, hs, hc⟩ := List.mem_flatMap.mp hindent
    obtain rfl := List.eq_of_mem_replicate hs
    obtain rfl : c = ' ' := by simpa using hc
    rfl

theorem squeezes_comma (p : Prop) [Decidable p] :
    Squeezes (if p then "," else "") (if p then "," else "") := by
  split
  · exact ⟨rfl, rfl⟩
  · exact Squeezes.empty

theorem squeezes_separator (indent : Nat) (slot : Slot) :
    Squeezes (separator ⟨d, true⟩ indent slot) (separator ⟨d, false⟩ indent slot) := by
  rw [separator, separator]
  split
  · exact (squeezes_comma _).append (squeezes_newline d indent)
  · exact Squeezes.empty

theorem squeezes_opener (shape : Shape) :
    Squeezes (opener ⟨d, true⟩ shape) (opener ⟨d, false⟩ shape) := by
  cases shape <;> cases d <;> exact ⟨rfl, rfl⟩

theorem squeezes_closer (kind : ScopeKind) :
    Squeezes (closer ⟨d, true⟩ kind) (closer ⟨d, false⟩ kind) := by
  cases kind <;> cases d <;> exact ⟨rfl, rfl⟩

theorem squeezes_variantStart (tag : String) :
    Squeezes (variantStart ⟨d, true⟩ tag) (variantStart ⟨d, false⟩ tag) := by
  have hspace : Squeezes (if true = true then " " else "") (if false = true then " " else "") :=
    ⟨rfl, rfl⟩
  refine Squeezes.append ?_ hspace
  cases d with
  | json =>
    have hopen : Squeezes "[" "[" := ⟨rfl, rfl⟩
    have hcomma : Squeezes "," "," := ⟨rfl, rfl⟩
    exact (hopen.append (Squeezes.quoted tag)).append hcomma
  | yojson =>
    have hopen : Squeezes "<" "<" := ⟨rfl, rfl⟩
    have hcolon : Squeezes ":" ":" := ⟨rfl, rfl⟩
    exact (hopen.append (Squeezes.quoted tag)).append hcolon

theorem squeezes_fieldStart (name : String) :
    Squeezes (fieldStart ⟨d, true⟩ name) (fieldStart ⟨d, false⟩ name) := by
  have hcolon : Squeezes ": " ":" := ⟨rfl, rfl⟩
  exact (Squeezes.quoted name).append hcolon

theorem squeezes_scalar (x : Scalar) : Squeezes (scalar ⟨d, true⟩ x) (scalar ⟨d, false⟩ x) := by
  cases x with
  | string s => exact Squeezes.quoted s
  | integer i => exact Squeezes.integer i
  | unsigned n => exact Squeezes.digits n
  | boolean b =>
    have htrue : Squeezes "true" "true" := ⟨rfl, rfl⟩
    have hfalse : Squeezes "false" "false" := ⟨rfl, rfl⟩
    cases b with
    | true => exact htrue
    | false => exact hfalse
  | simple tag =>
    cases d with
    | json => exact Squeezes.quoted tag
    | yojson =>
      have hopen : Squeezes "<" "<" := ⟨rfl, rfl⟩
      have hclose : Squeezes ">" ">" := ⟨rfl, rfl⟩
      exact (hopen.append (Squeezes.quoted tag)).append hclose

end TextFormat

/-- The same rejection, or a pretty and a compact text with the same state after them. -/
inductive SqueezesTo : Except WriteError (String × TextState) →
    Except WriteError (String × TextState) → Prop
  | error (e : WriteError) : SqueezesTo (.error e) (.error e)
  | text {p q : String} (h : Squeezes p q) (s : TextState) : SqueezesTo (.ok (p, s)) (.ok (q, s))

namespace TextState

variable (d : Dialect) (s : TextState)

/-- What is laid out has no part in the state, so every call is accepted or rejected in both layouts. -/
theorem squeezes_call (c : Call) : SqueezesTo (s.call ⟨d, true⟩ c) (s.call ⟨d, false⟩ c) := by
  cases c with
  | container shape arity =>
    rw [call, call]
    cases s.scopes.enter shape.scope arity with
    | error e => exact .error e
    | ok x =>
      exact .text ((TextFormat.squeezes_separator d s.indent x.1).append
        (TextFormat.squeezes_opener d shape)) _
  | variant tag =>
    rw [call, call]
    cases s.scopes.enter .variant 1 with
    | error e => exact .error e
    | ok x =>
      exact .text ((TextFormat.squeezes_separator d s.indent x.1).append
        (TextFormat.squeezes_variantStart d tag)) _
  | close =>
    rw [call, call]
    cases s.scopes.close with
    | error e => exact .error e
    | ok x =>
      obtain ⟨frame, scopes⟩ := x
      have hcloser := TextFormat.squeezes_closer d frame.kind
      dsimp only
      split
      · exact .text hcloser _
      · split
        · exact .text ((TextFormat.squeezes_newline d (s.indent - 1)).append hcloser) _
        · exact .text (Squeezes.empty.append hcloser) _
  | tag name =>
    rw [call, call]
    cases s.scopes.tag with
    | error e => exact .error e
    | ok x =>
      exact .text (((TextFormat.squeezes_comma _).append
        (TextFormat.squeezes_newline d s.indent)).append (TextFormat.squeezes_fieldStart d name)) _
  | leaf x =>
    rw [call, call]
    cases s.scopes.value with
    | error e => exact .error e
    | ok y =>
      exact .text ((TextFormat.squeezes_separator d s.indent y.1).append
        (TextFormat.squeezes_scalar d x)) _

theorem squeezes_finish : SqueezesTo (s.finish ⟨d, true⟩) (s.finish ⟨d, false⟩) := by
  rw [finish, finish]
  cases s.scopes.finish with
  | error e => exact .error e
  | ok scopes =>
    have hbreak : Squeezes "\n" "" := ⟨rfl, rfl⟩
    exact .text hbreak _

end TextState

/-! ### Writers -/

namespace TextWriter

/-- A pretty and a compact writer of a dialect that have accepted the same calls, over sinks that take
everything. -/
structure SameBut (d : Dialect) (w u : TextWriter) : Prop where
  pretty : w.format = ⟨d, true⟩
  compact : u.format = ⟨d, false⟩
  state : w.state = u.state
  unlimited : w.sink.capacity = none ∧ u.sink.capacity = none
  flush : w.sink.flushFails = false ∧ u.sink.flushFails = false

/-- The text that one command adds to a pretty sink squeezes to the text that it adds to a compact
one. -/
structure Adds (d : Dialect) (w u : TextWriter) (x y : Except WriteError Unit × TextWriter) :
    Prop where
  answer : x.1 = y.1
  same : SameBut d x.2 y.2
  texts : ∃ p q : String, Squeezes p q ∧
    x.2.sink.bytes = w.sink.bytes ++ p.toUTF8 ∧ y.2.sink.bytes = u.sink.bytes ++ q.toUTF8

namespace SameBut

variable {d : Dialect} {w u : TextWriter} (h : SameBut d w u)

include h

theorem adds_error (e : WriteError) : Adds d w u (.error e, w) (.error e, u) where
  answer := rfl
  same := h
  texts := ⟨"", "", Squeezes.empty, by simp, by simp⟩

theorem adds_text {p q : String} (hpq : Squeezes p q) (s : TextState) : Adds d w u
    (if (w.sink.write p).1 then .ok () else .error .io, w.wrote p s)
    (if (u.sink.write q).1 then .ok () else .error .io, u.wrote q s) := by
  have hw := Sink.write_eq_of_unlimited h.unlimited.1 p
  have hu := Sink.write_eq_of_unlimited h.unlimited.2 q
  rw [wrote, wrote, hw, hu]
  exact ⟨rfl, ⟨h.pretty, h.compact, rfl, h.unlimited, h.flush⟩, p, q, hpq, rfl, rfl⟩

theorem adds_call (c : Call) : Adds d w u (w.call c) (u.call c) := by
  have hw : w.state.call w.format c = w.state.call ⟨d, true⟩ c := by rw [h.pretty]
  have hu : u.state.call u.format c = w.state.call ⟨d, false⟩ c := by rw [h.compact, h.state]
  have hsqueezes := TextState.squeezes_call d w.state c
  generalize w.state.call ⟨d, true⟩ c = x at hw hsqueezes
  generalize w.state.call ⟨d, false⟩ c = y at hu hsqueezes
  cases hsqueezes with
  | error e =>
    rw [call_of_error hw, call_of_error hu]
    exact h.adds_error e
  | text hpq s =>
    rw [call_of_text hw, call_of_text hu]
    exact h.adds_text hpq s

theorem adds_finish : Adds d w u w.finish u.finish := by
  have hw : w.state.finish w.format = w.state.finish ⟨d, true⟩ := by rw [h.pretty]
  have hu : u.state.finish u.format = w.state.finish ⟨d, false⟩ := by rw [h.compact, h.state]
  have hsqueezes := TextState.squeezes_finish d w.state
  generalize w.state.finish ⟨d, true⟩ = x at hw hsqueezes
  generalize w.state.finish ⟨d, false⟩ = y at hu hsqueezes
  cases hsqueezes with
  | error e =>
    rw [finish_of_error hw, finish_of_error hu]
    exact h.adds_error e
  | text hpq s =>
    rw [finish_of_text h.flush.1 hw, finish_of_text h.flush.2 hu]
    exact h.adds_text hpq s

/-- One command. -/
theorem adds (c : Command) : Adds d w u (c.perform w) (c.perform u) := by
  cases c with
  | call c => exact h.adds_call c
  | finish => exact h.adds_finish

end SameBut

/-- What stands in a pretty sink after `a` squeezes to what stands in a compact one after `b`, with the
same string literals. -/
def SqueezesAfter (a b x y : ByteArray) : Prop :=
  ∃ p q : String, x = a ++ p.toUTF8 ∧ y = b ++ q.toUTF8 ∧ squeeze p = q ∧ literals p = literals q

theorem Adds.squeezesAfter {d : Dialect} {w u : TextWriter}
    {x y : Except WriteError Unit × TextWriter} (h : Adds d w u x y) :
    SqueezesAfter w.sink.bytes u.sink.bytes x.2.sink.bytes y.2.sink.bytes := by
  obtain ⟨p, q, hpq, hx, hy⟩ := h.texts
  exact ⟨p, q, hx, hy, hpq.squeeze_eq, hpq.literals_eq⟩

/-- A pretty and a compact writer beside each other, whose texts so far stand after `a` and `b`. -/
structure Beside (d : Dialect) (a b : ByteArray) (w u : TextWriter) : Prop where
  same : SameBut d w u
  texts : ∃ p q : String, Squeezes p q ∧
    w.sink.bytes = a ++ p.toUTF8 ∧ u.sink.bytes = b ++ q.toUTF8

namespace Beside

variable {d : Dialect} {a b : ByteArray}

theorem fresh (d : Dialect) (a b : ByteArray) : Beside d a b
    { format := ⟨d, true⟩, sink := { bytes := a } }
    { format := ⟨d, false⟩, sink := { bytes := b } } where
  same := ⟨rfl, rfl, rfl, ⟨rfl, rfl⟩, ⟨rfl, rfl⟩⟩
  texts := ⟨"", "", Squeezes.empty, by simp, by simp⟩

/-- One command adds to the texts. -/
theorem agree {w u : TextWriter} {x y : Except WriteError Unit × TextWriter}
    (h : Beside d a b w u) (hadds : Adds d w u x y) : Agree (Beside d a b) x y := by
  obtain ⟨p, q, hpq, hw, hu⟩ := h.texts
  obtain ⟨p', q', hpq', hx, hy⟩ := hadds.texts
  refine ⟨hadds.answer, hadds.same, p ++ p', q ++ q', hpq.append hpq', ?_, ?_⟩
  · simp [hx, hw, ByteArray.append_assoc]
  · simp [hy, hu, ByteArray.append_assoc]

theorem lockstep (d : Dialect) (a b : ByteArray) : Lockstep (Beside d a b) where
  call c h := h.agree (h.same.adds_call c)
  finish h := h.agree h.same.adds_finish

theorem squeezesAfter {w u : TextWriter} (h : Beside d a b w u) :
    SqueezesAfter a b w.sink.bytes u.sink.bytes := by
  obtain ⟨p, q, hpq, hw, hu⟩ := h.texts
  exact ⟨p, q, hw, hu, hpq.squeeze_eq, hpq.literals_eq⟩

end Beside

end TextWriter

end SyntaxExport
