import SyntaxExport.Proofs.Document.Complete

/-!
# The text of a whole document

A text writer knows the open scopes and the indentation and nothing else of the document.
`Value.text` gives the text of a document by recursion on the document, and
`TextState.textAll_tokensAppend` says that the texts of its calls are that text: every separator, line
break and bracket is where the recursion puts it.
-/

namespace SyntaxExport

namespace Value

/-- A comma in front of every part but the first. -/
def comma (index : Nat) : String :=
  if index > 0 then "," else ""

mutual

/-- The text of a document inside `indent` objects, arrays and tuples. -/
def text (f : TextFormat) (indent : Nat) : Value → String
  | .leaf x => f.scalar x
  | .object fs =>
    f.opener .object ++ fieldsText f (indent + 1) 0 fs
      ++ (if fs.length > 0 then f.newline indent else "") ++ f.closer .object
  | .array ts =>
    f.opener .array ++ itemsText f (indent + 1) 0 ts
      ++ (if ts.length > 0 then f.newline indent else "") ++ f.closer .array
  | .tuple ts =>
    f.opener .tuple ++ itemsText f (indent + 1) 0 ts
      ++ (if ts.length > 0 then f.newline indent else "") ++ f.closer .tuple
  | .variant tag v => f.variantStart tag ++ text f indent v ++ f.closer .variant

/-- The text of the fields of an object from the one at `index` on. -/
def fieldsText (f : TextFormat) (indent index : Nat) : List (String × Value) → String
  | [] => ""
  | (name, v) :: fs =>
    comma index ++ f.newline indent ++ f.fieldStart name ++ text f indent v
      ++ fieldsText f indent (index + 1) fs

/-- The text of the elements of an array or tuple from the one at `index` on. -/
def itemsText (f : TextFormat) (indent index : Nat) : List Value → String
  | [] => ""
  | v :: vs => comma index ++ f.newline indent ++ text f indent v ++ itemsText f indent (index + 1) vs

end

end Value

namespace TextState

/-- The text of calls and the state after them. -/
def textAll (f : TextFormat) : List Call → TextState → Except WriteError (String × TextState)
  | [], s => .ok ("", s)
  | c :: cs, s =>
    match s.call f c with
    | .error e => .error e
    | .ok (text, s) =>
      match textAll f cs s with
      | .error e => .error e
      | .ok (more, s) => .ok (text ++ more, s)

/-- Puts a text in front. -/
def prepend (text : String) (x : Except WriteError (String × TextState)) :
    Except WriteError (String × TextState) :=
  x.map fun (more, s) => (text ++ more, s)

@[simp] theorem prepend_prepend (a b : String) (x : Except WriteError (String × TextState)) :
    prepend a (prepend b x) = prepend (a ++ b) x := by
  cases x with
  | error e => rfl
  | ok y => simp [prepend, Except.map, String.append_assoc]

@[simp] theorem prepend_empty (x : Except WriteError (String × TextState)) : prepend "" x = x := by
  cases x with
  | error e => rfl
  | ok y => simp [prepend, Except.map]

variable {f : TextFormat} {s t : TextState}

theorem textAll_cons {c : Call} {text : String} (h : s.call f c = .ok (text, t)) (cs : List Call) :
    textAll f (c :: cs) s = prepend text (textAll f cs t) := by
  rw [textAll, h]
  simp only [prepend]
  cases textAll f cs t <;> rfl

/-- One more call after calls. -/
theorem textAll_concat {c : Call} : ∀ {cs : List Call} {s t u : TextState} {text more : String},
    textAll f cs s = .ok (text, t) → t.call f c = .ok (more, u) →
    textAll f (cs ++ [c]) s = .ok (text ++ more, u)
  | [], s, t, u, text, more, h, hc => by
    obtain ⟨rfl, rfl⟩ : text = "" ∧ t = s := by
      cases h
      exact ⟨rfl, rfl⟩
    rw [List.nil_append, textAll_cons hc]
    simp [textAll, prepend, Except.map]
  | d :: cs, s, t, u, text, more, h, hc => by
    rw [textAll] at h
    split at h
    · cases h
    · next first s₁ hd =>
      split at h
      · cases h
      · next last t' hcs =>
        obtain ⟨rfl, rfl⟩ : text = first ++ last ∧ t = t' := by
          cases h
          exact ⟨rfl, rfl⟩
        rw [List.cons_append, textAll_cons hd, textAll_concat hcs hc]
        simp [prepend, Except.map, String.append_assoc]

/-- Calls that have a text are accepted by the scopes. -/
theorem accountAll_of_textAll : ∀ {cs : List Call} {s t : TextState} {text : String},
    textAll f cs s = .ok (text, t) → s.scopes.accountAll cs = .ok t.scopes
  | [], s, t, text, h => by
    cases h
    rfl
  | c :: cs, s, t, text, h => by
    rw [textAll] at h
    split at h
    · cases h
    · next s₁ hc =>
      split at h
      · cases h
      · next hcs =>
        cases h
        have haccount := call_eq f s c
        rw [hc] at haccount
        rw [ScopeStack.accountAll_cons haccount.symm]
        exact accountAll_of_textAll hcs

/-! ### One call -/

theorem call_container {u : ScopeStack} {slot : Slot} (h : s.scopes.value = .ok (slot, u))
    (shape : Shape) (arity : Nat) : s.call f (.container shape arity)
      = .ok (f.separator s.indent slot ++ f.opener shape,
        ⟨⟨{ kind := shape.scope, arity := arity } :: u.frames⟩, s.indent + 1⟩) := by
  simp [call, ScopeStack.enter, h]

theorem call_variant {u : ScopeStack} {slot : Slot} (h : s.scopes.value = .ok (slot, u))
    (tag : String) : s.call f (.variant tag)
      = .ok (f.separator s.indent slot ++ f.variantStart tag,
        ⟨⟨{ kind := .variant, arity := 1 } :: u.frames⟩, s.indent⟩) := by
  simp [call, ScopeStack.enter, h]

theorem call_leaf {u : ScopeStack} {slot : Slot} (h : s.scopes.value = .ok (slot, u))
    (x : Scalar) : s.call f (.leaf x)
      = .ok (f.separator s.indent slot ++ f.scalar x, ⟨u, s.indent⟩) := by
  simp [call, h]

/-- The close of a full container. -/
theorem call_close {u : ScopeStack} (h : u.frames ≠ []) {shape : Shape} {arity indent : Nat} :
    (⟨⟨{ kind := shape.scope, arity := arity, emitted := arity } :: u.frames⟩, indent + 1⟩ :
      TextState).call f .close
      = .ok ((if arity > 0 then f.newline indent else "") ++ f.closer shape.scope, ⟨u, indent⟩) := by
  obtain ⟨frames⟩ := u
  obtain _ | ⟨g, outer⟩ := frames
  · exact absurd rfl h
  · cases shape <;> simp [call, ScopeStack.close, Shape.scope]

theorem call_close_variant {u : ScopeStack} (h : u.frames ≠ []) {indent : Nat} :
    (⟨⟨{ kind := .variant, arity := 1, emitted := 1 } :: u.frames⟩, indent⟩ : TextState).call f .close
      = .ok (f.closer .variant, ⟨u, indent⟩) := by
  obtain ⟨frames⟩ := u
  obtain _ | ⟨g, outer⟩ := frames
  · exact absurd rfl h
  · simp [call, ScopeStack.close]

theorem call_tag {g : Frame} {outer : List Frame} (hkind : g.kind = .object)
    (hg : g.tagged = false) (hroom : g.emitted < g.arity) (indent : Nat) (name : String) :
    (⟨⟨g :: outer⟩, indent⟩ : TextState).call f (.tag name)
      = .ok (Value.comma g.emitted ++ f.newline indent ++ f.fieldStart name,
        ⟨⟨{ g with tagged := true } :: outer⟩, indent⟩) := by
  have hne : g.emitted ≠ g.arity := Nat.ne_of_lt hroom
  simp [call, ScopeStack.tag, hkind, hg, hne, Value.comma]

/-- Fields and arguments have nothing in front, elements a comma and a line break. -/
theorem separator_item (f : TextFormat) (indent : Nat) {kind : ScopeKind} (index : Nat)
    (h : kind = .array ∨ kind = .tuple) :
    f.separator indent ⟨kind, index⟩ = Value.comma index ++ f.newline indent := by
  rw [TextFormat.separator, if_pos h, Value.comma]

theorem separator_other (f : TextFormat) (indent : Nat) {kind : ScopeKind} (index : Nat)
    (h : ¬(kind = .array ∨ kind = .tuple)) : f.separator indent ⟨kind, index⟩ = "" := by
  rw [TextFormat.separator, if_neg h]

/-! ### Whole documents -/

mutual

theorem textAll_tokensAppend (f : TextFormat) : ∀ (d : Value) {s : TextState} {u : ScopeStack}
    {slot : Slot} (rest : List Call), s.scopes.value = .ok (slot, u) →
    textAll f (d.tokensAppend rest) s
      = prepend (f.separator s.indent slot ++ d.text f s.indent) (textAll f rest ⟨u, s.indent⟩)
  | .leaf x, s, u, slot, rest, h => textAll_cons (call_leaf h x) rest
  | .object fs, s, u, slot, rest, h => by
    have hopen := ScopeStack.frames_ne_nil_of_value h
    rw [Tree.tokensAppend, textAll_cons (call_container h .object fs.length),
      textAll_fieldTokens f fs _ rfl rfl (Nat.zero_add _), textAll_cons (call_close hopen)]
    simp only [prepend_prepend, Value.text, String.append_assoc]
    rfl
  | .array ts, s, u, slot, rest, h => by
    have hopen := ScopeStack.frames_ne_nil_of_value h
    rw [Tree.tokensAppend, textAll_cons (call_container h .array ts.length),
      textAll_itemTokens f ts _ (.inl rfl) rfl (Nat.zero_add _), textAll_cons (call_close hopen)]
    simp only [prepend_prepend, Value.text, String.append_assoc]
    rfl
  | .tuple ts, s, u, slot, rest, h => by
    have hopen := ScopeStack.frames_ne_nil_of_value h
    rw [Tree.tokensAppend, textAll_cons (call_container h .tuple ts.length),
      textAll_itemTokens f ts _ (.inr rfl) rfl (Nat.zero_add _), textAll_cons (call_close hopen)]
    simp only [prepend_prepend, Value.text, String.append_assoc]
    rfl
  | .variant tag d, s, u, slot, rest, h => by
    have hopen := ScopeStack.frames_ne_nil_of_value h
    have hkind : ScopeKind.variant ≠ .object := by decide
    rw [Tree.tokensAppend, textAll_cons (call_variant h tag),
      textAll_tokensAppend f d _ (ScopeStack.value_of_room hkind Nat.one_pos _),
      separator_other f s.indent 0 (by decide), textAll_cons (call_close_variant hopen)]
    simp only [prepend_prepend, Value.text, String.append_assoc, String.empty_append]

theorem textAll_fieldTokens (f : TextFormat) : ∀ (fs : List (String × Value)) {g : Frame}
    {outer : List Frame} {indent : Nat} (rest : List Call), g.kind = .object → g.tagged = false →
    g.emitted + fs.length = g.arity →
    textAll f (Tree.fieldTokens fs rest) ⟨⟨g :: outer⟩, indent⟩
      = prepend (Value.fieldsText f indent g.emitted fs)
        (textAll f rest ⟨⟨{ g with emitted := g.arity } :: outer⟩, indent⟩)
  | [], ⟨kind, arity, emitted, tagged⟩, outer, indent, rest, _, _, hroom => by
    obtain rfl : emitted = arity := hroom
    exact (prepend_empty _).symm
  | (name, d) :: fs, g, outer, indent, rest, hkind, hg, hroom => by
    rw [List.length_cons] at hroom
    have hvalue := ScopeStack.value_of_tagged hkind hg outer
    rw [Tree.fieldTokens, textAll_cons (call_tag hkind hg (by omega) indent name),
      textAll_tokensAppend f d _ hvalue, separator_other f indent _ (by simp [hkind]),
      textAll_fieldTokens f fs (g := { g with emitted := g.emitted + 1 }) rest hkind hg
        (by simp only; omega)]
    simp only [prepend_prepend, Value.fieldsText, String.append_assoc, String.empty_append]

theorem textAll_itemTokens (f : TextFormat) : ∀ (ts : List Value) {g : Frame}
    {outer : List Frame} {indent : Nat} (rest : List Call), (g.kind = .array ∨ g.kind = .tuple) →
    g.tagged = false → g.emitted + ts.length = g.arity →
    textAll f (Tree.itemTokens ts rest) ⟨⟨g :: outer⟩, indent⟩
      = prepend (Value.itemsText f indent g.emitted ts)
        (textAll f rest ⟨⟨{ g with emitted := g.arity } :: outer⟩, indent⟩)
  | [], ⟨kind, arity, emitted, tagged⟩, outer, indent, rest, _, _, hroom => by
    obtain rfl : emitted = arity := hroom
    exact (prepend_empty _).symm
  | d :: ts, g, outer, indent, rest, hkind, hg, hroom => by
    rw [List.length_cons] at hroom
    have hobject : g.kind ≠ .object := by
      rcases hkind with h | h <;> simp [h]
    have hvalue := ScopeStack.value_of_room hobject (by omega) outer
    rw [Tree.itemTokens, textAll_tokensAppend f d _ hvalue, separator_item f indent _ hkind,
      textAll_itemTokens f ts (g := { g with emitted := g.emitted + 1 }) rest hkind hg
        (by simp only; omega)]
    simp only [prepend_prepend, Value.itemsText, String.append_assoc]

end

/-- The text of a document from its start. -/
theorem textAll_tokens (f : TextFormat) (v : Value) :
    textAll f v.tokens {} = .ok (v.text f 0,
      { scopes := ⟨[{ kind := .document, arity := 1, emitted := 1 }]⟩ }) := by
  have hvalue : (({} : TextState).scopes).value = .ok (⟨.document, 0⟩,
      ⟨[{ kind := .document, arity := 1, emitted := 1 }]⟩) := rfl
  have h := textAll_tokensAppend f v [] hvalue
  rw [TextFormat.separator, if_neg (by decide), String.empty_append] at h
  rw [Tree.tokens, h, textAll]
  simp [prepend, Except.map]

end TextState

end SyntaxExport
