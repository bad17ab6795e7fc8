import SyntaxExport.Proofs.Document.Bind
import SyntaxExport.Proofs.Document.Decoding
import SyntaxExport.Proofs.Document.Log

/-!
# Text writers and recorders

`TextWriter.text_decodes` compares the two kinds of writers on the same calls: where a text writer
accepts them up to the end of the document, the reader gets back from its bytes what a recorder
recorded. The dialect with brackets of its own keeps all of it but the difference between the two
sorts of integers.
-/

namespace SyntaxExport

/-! ### Back to documents -/

/-- The scalar that a literal stands for, where it is no fraction and not null. -/
def Literal.scalar? : Literal → Option Scalar
  | .null => none
  | .boolean b => some (.boolean b)
  | .number m e => if e = 0 then some (.integer m) else none
  | .string s => some (.string s)
  | .simple tag => some (.simple tag)

/-- Forgets that an integer has no sign. -/
def Scalar.normal : Scalar → Scalar
  | .unsigned n => .integer n
  | x => x

theorem Scalar.scalar?_literal (x : Scalar) : (x.literal .yojson).scalar? = some x.normal := by
  cases x <;> rfl

namespace Tree

variable {α β : Type}

mutual

/-- Replaces every leaf, where every leaf can be replaced. -/
def traverse? (f : α → Option β) : Tree α → Option (Tree β)
  | .leaf a => (f a).map .leaf
  | .object fs => (traverseFields? f fs).map .object
  | .array ts => (traverseItems? f ts).map .array
  | .tuple ts => (traverseItems? f ts).map .tuple
  | .variant tag t => (traverse? f t).map (.variant tag)

/-- Replaces every leaf of the fields of an object. -/
def traverseFields? (f : α → Option β) :
    List (String × Tree α) → Option (List (String × Tree β))
  | [] => some []
  | (name, t) :: fs =>
    match traverse? f t with
    | none => none
    | some t => (traverseFields? f fs).map ((name, t) :: ·)

/-- Replaces every leaf of the elements of an array or tuple. -/
def traverseItems? (f : α → Option β) : List (Tree α) → Option (List (Tree β))
  | [] => some []
  | t :: ts =>
    match traverse? f t with
    | none => none
    | some t => (traverseItems? f ts).map (t :: ·)

end

end Tree

namespace Value

/-- A document without the difference between the two sorts of integers. -/
def normal (v : Value) : Value :=
  v.bind fun x => .leaf x.normal

/-- The document that a whole text is in the dialect with brackets of its own. -/
def read? (text : String) : Option Value :=
  (Reader.read? .yojson text).bind (Tree.traverse? Literal.scalar?)

mutual

theorem traverse?_image : ∀ v : Value,
    (v.image .yojson).traverse? Literal.scalar? = some v.normal
  | .leaf x => by
    rw [image, Tree.traverse?, Scalar.scalar?_literal]
    rfl
  | .object fs => by
    rw [image, Tree.traverse?, traverseFields?_image fs]
    rfl
  | .array ts => by
    rw [image, Tree.traverse?, traverseItems?_image ts]
    rfl
  | .tuple ts => by
    rw [image, Tree.traverse?, traverseItems?_image ts]
    rfl
  | .variant tag v => by
    rw [image, Tree.traverse?, traverse?_image v]
    rfl

theorem traverseFields?_image : ∀ fs : List (String × Value),
    Tree.traverseFields? Literal.scalar? (imageFields .yojson fs)
      = some (Tree.bindFields fs fun x => .leaf x.normal)
  | [] => rfl
  | (name, v) :: fs => by
    rw [imageFields, Tree.traverseFields?, traverse?_image v, traverseFields?_image fs]
    rfl

theorem traverseItems?_image : ∀ ts : List Value,
    Tree.traverseItems? Literal.scalar? (imageItems .yojson ts)
      = some (Tree.bindItems ts fun x => .leaf x.normal)
  | [] => rfl
  | v :: ts => by
    rw [imageItems, Tree.traverseItems?, traverse?_image v, traverseItems?_image ts]
    rfl

end

/-- The text of a document as it is written to a sink. -/
def whole (f : TextFormat) (v : Value) : String :=
  v.text f 0 ++ if f.pretty then "\n" else ""

theorem read?_whole (f : TextFormat) (v : Value) :
    Reader.read? f.dialect (v.whole f) = some (v.image f.dialect) := by
  have hstops : Reader.Stops (if f.pretty then "\n" else "" : String).toList := by
    split
    · exact Reader.stops_cons (c := '\n') (by decide) []
    · exact Reader.stops_nil
  have hskip : Reader.skip (if f.pretty then "\n" else "" : String).toList = [] := by
    split <;> rfl
  have hlength : (v.text f 0).toList.length ≤ (v.whole f).toList.length + 1 := by
    rw [whole, String.toList_append, List.length_append]
    omega
  have hread := Reader.value?_text f v 0 hlength hstops
  rw [← String.toList_append] at hread
  exact Reader.read?_of_value? hread hskip

theorem read?_eq_normal {f : TextFormat} (hf : f.dialect = .yojson) (v : Value) :
    read? (v.whole f) = some v.normal := by
  have h := read?_whole f v
  rw [hf] at h
  rw [read?, h, Option.bind_some, traverse?_image]

end Value

/-! ### Writers on the same calls -/

namespace TextWriter

/-- An accepted call hands its text to the sink. -/
theorem eq_of_call {c : Call} {w w' : TextWriter} (hw : ScopedWriter.Reliable w)
    (h : DocumentWriter.call c w = (.ok (), w')) : ∃ text state,
      w.state.call w.format c = .ok (text, state)
        ∧ w' = ⟨w.format, state, { w.sink with bytes := w.sink.bytes ++ text.toUTF8 }⟩ := by
  change TextWriter.call c w = _ at h
  cases hc : w.state.call w.format c with
  | error e =>
    rw [call, hc] at h
    cases congrArg Prod.fst h
  | ok x =>
    obtain ⟨text, state⟩ := x
    rw [call, hc] at h
    simp only [Sink.write_eq_of_unlimited hw.1] at h
    exact ⟨text, state, rfl, (congrArg Prod.snd h).symm⟩

theorem eq_of_finish {w w' : TextWriter} (hw : ScopedWriter.Reliable w)
    (h : DocumentWriter.finish w = (.ok (), w')) : ∃ text state,
      w.state.finish w.format = .ok (text, state)
        ∧ w' = ⟨w.format, state, { w.sink with bytes := w.sink.bytes ++ text.toUTF8 }⟩ := by
  change TextWriter.finish w = _ at h
  cases hc : w.state.finish w.format with
  | error e =>
    rw [finish, hc] at h
    cases congrArg Prod.fst h
  | ok x =>
    obtain ⟨text, state⟩ := x
    rw [finish, hc] at h
    simp only [Sink.write_eq_of_unlimited hw.1] at h
    exact ⟨text, state, rfl, (congrArg Prod.snd h).symm⟩

/-- Accepted calls hand their text to the sink. -/
theorem eq_of_performs : ∀ {calls : List Call} {w w' : TextWriter},
    ScopedWriter.Reliable w → Performs calls w w' → ∃ text state,
      TextState.textAll w.format calls w.state = .ok (text, state)
        ∧ w' = ⟨w.format, state, { w.sink with bytes := w.sink.bytes ++ text.toUTF8 }⟩
  | [], w, w', _, h => by
    obtain rfl : w = w' := congrArg Prod.snd h
    exact ⟨"", w.state, rfl, by simp⟩
  | c :: calls, w, w', hw, h => by
    obtain ⟨w₁, hc, h⟩ := h.of_cons
    obtain ⟨text, state, htext, rfl⟩ := eq_of_call hw hc
    obtain ⟨more, state', hmore, rfl⟩ := eq_of_performs (by exact hw) h
    refine ⟨text ++ more, state', ?_, ?_⟩
    · rw [TextState.textAll_cons htext, hmore]
      rfl
    · simp [ByteArray.append_assoc]

/-- The bytes of a document are its text. -/
theorem bytes_of_document {f : TextFormat} {v : Value} {w w' : TextWriter}
    (h : Performs v.tokens ({ format := f } : TextWriter) w)
    (hfinish : DocumentWriter.finish w = (.ok (), w')) :
    w'.sink.bytes = (v.whole f).toUTF8 := by
  obtain ⟨text, state, htext, rfl⟩ := eq_of_performs ⟨rfl, rfl⟩ h
  obtain ⟨last, state', hlast, rfl⟩ := eq_of_finish ⟨rfl, rfl⟩ hfinish
  obtain ⟨rfl, rfl⟩ :=
    Prod.mk.inj (Except.ok.inj (htext.symm.trans (TextState.textAll_tokens f v)))
  obtain ⟨rfl, rfl⟩ := Prod.mk.inj (Except.ok.inj hlast).symm
  simp [Value.whole]

/-- Where a text writer accepts calls up to the end of the document, a recorder does too, and the
bytes are the text of the recorded document. -/
theorem exists_document {f : TextFormat} {commands : List Command} {w : TextWriter}
    (h : Command.performAll (commands ++ [.finish]) ({ format := f } : TextWriter) = (.ok (), w)) :
    ∃ (v : Value) (r : Recorder),
      Command.performAll (commands ++ [.finish]) ({} : Recorder) = (.ok (), r)
        ∧ r.document? = some v ∧ w.sink.bytes = (v.whole f).toUTF8 := by
  have hreliable : ScopedWriter.Reliable ({ format := f } : TextWriter) := ⟨rfl, rfl⟩
  obtain ⟨calls, w₁, rfl, hcalls, hfinish⟩ := ScopedWriter.exists_calls hreliable h
  obtain ⟨haccount, hw₁⟩ := ScopedWriter.accountAll_of_performs hreliable hcalls
  have hend := ScopedWriter.finish_of_finish hw₁ hfinish
  obtain ⟨v, rfl⟩ := ScopeStack.exists_tokens haccount hend
  obtain ⟨r₁, hrecord, hr₁, -⟩ :=
    ScopedWriter.performs_of_accountAll (w := ({} : Recorder)) trivial haccount
  rw [← hr₁] at hend
  obtain ⟨r, hr, -⟩ := ScopedWriter.finish_ok (w := r₁) trivial hend
  refine ⟨v, r, hrecord.append_finish hr, ?_, bytes_of_document hcalls hfinish⟩
  exact Recorder.document?_of_performs hrecord hr

/-- The text of a document, compact or pretty, is read back as the document that a recorder gets from
the same calls. In the plain dialect tuples and variants come back as arrays. The other dialect keeps
the document but for the two sorts of integers, so documents that differ in more than that never have
the same text. -/
theorem text_decodes (f : TextFormat) (commands : List Command) (w : TextWriter)
    (h : Command.performAll (commands ++ [.finish]) ({ format := f } : TextWriter) = (.ok (), w)) :
    ∃ (v : Value) (r : Recorder) (text : String),
      Command.performAll (commands ++ [.finish]) ({} : Recorder) = (.ok (), r) ∧
      r.document? = some v ∧ w.sink.bytes = text.toUTF8 ∧
      (f.dialect = .json → Reader.read? .json text = some (v.image .json)) ∧
      (f.dialect = .yojson → Value.read? text = some v.normal ∧
        ∀ (f' : TextFormat) (commands' : List Command) (w' : TextWriter) (r' : Recorder) (v' : Value),
          f'.dialect = .yojson →
          Command.performAll (commands' ++ [.finish]) ({ format := f' } : TextWriter) = (.ok (), w') →
          Command.performAll (commands' ++ [.finish]) ({} : Recorder) = (.ok (), r') →
          r'.document? = some v' → w'.sink.bytes = w.sink.bytes → v'.normal = v.normal) := by
  obtain ⟨v, r, hr, hv, hbytes⟩ := exists_document h
  refine ⟨v, r, v.whole f, hr, hv, hbytes, ?_, ?_⟩
  · intro hf
    have hread := Value.read?_whole f v
    rwa [hf] at hread
  · intro hf
    refine ⟨Value.read?_eq_normal hf v, ?_⟩
    intro f' commands' w' r' v' hf' h' hr' hv' heq
    obtain ⟨v₁, r₁, hr₁, hv₁, hbytes'⟩ := exists_document h'
    obtain rfl : r' = r₁ := congrArg Prod.snd (hr'.symm.trans hr₁)
    obtain rfl : v' = v₁ := Option.some.inj (hv'.symm.trans hv₁)
    have htext : v'.whole f' = v.whole f := by
      rw [hbytes, hbytes'] at heq
      exact String.toByteArray_inj.mp heq
    have hread := Value.read?_eq_normal hf' v'
    rw [htext, Value.read?_eq_normal hf v] at hread
    exact (Option.some.inj hread).symm

/-- A pair of an integer without a sign and a variant without an argument. -/
theorem text_decodes_pair : ∃ w : TextWriter,
    Command.performAll
      (Command.container .tuple 2 [.call (.leaf (.unsigned 1)), .call (.leaf (.simple "None"))]
        ++ [.finish]) ({ format := { dialect := .yojson, pretty := true } } : TextWriter)
      = (.ok (), w) ∧
    ∃ (v : Value) (text : String), w.sink.bytes = text.toUTF8 ∧ Value.read? text = some v.normal := by
  obtain ⟨v, r, text, hr, hv, hbytes, -, hread⟩ :=
    text_decodes { dialect := .yojson, pretty := true }
      (Command.container .tuple 2 [.call (.leaf (.unsigned 1)), .call (.leaf (.simple "None"))]) _ rfl
  exact ⟨_, rfl, v, text, hbytes, (hread rfl).1⟩

end TextWriter

end SyntaxExport
