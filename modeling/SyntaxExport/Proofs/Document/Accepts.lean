import SyntaxExport.Document.Recorder
import SyntaxExport.Document.Sink

/-!
# Documents and scopes

Where a stack of scopes takes one value, it takes the tokens of a whole document, and is left as after
that one value (`ScopeStack.accountAll_tokens`). The declared sizes are those of the document, so no
scope is closed early and none is overfilled.

`ScopedWriter` is what recorders and text writers have in common: they accept a call exactly where
their scopes do. A text writer is one as long as its sink takes all bytes.
-/

namespace SyntaxExport

namespace ScopeStack

variable {α β : Type} {s t : ScopeStack} {slot : Slot}

/-- Accounts for tokens one by one. -/
def accountAll (s : ScopeStack) (ts : List (Token α)) : Except WriteError ScopeStack :=
  ts.foldlM account s

@[simp] theorem accountAll_nil (s : ScopeStack) : s.accountAll ([] : List (Token α)) = .ok s := rfl

theorem accountAll_cons {c : Token α} (h : s.account c = .ok t) (ts : List (Token α)) :
    s.accountAll (c :: ts) = t.accountAll ts := by
  rw [accountAll, List.foldlM_cons, h]
  rfl

theorem exists_of_accountAll_cons {c : Token α} {ts : List (Token α)} {u : ScopeStack}
    (h : s.accountAll (c :: ts) = .ok u) :
    ∃ t, s.account c = .ok t ∧ t.accountAll ts = .ok u := by
  cases hc : s.account c with
  | error e =>
    rw [accountAll, List.foldlM_cons, hc] at h
    cases h
  | ok t =>
    rw [accountAll_cons hc] at h
    exact ⟨t, rfl, h⟩

/-! ### One token -/

theorem account_leaf (h : s.value = .ok (slot, t)) (a : α) : s.account (.leaf a) = .ok t := by
  simp [account, h, Functor.map, Except.map]

theorem account_container (h : s.value = .ok (slot, t)) (shape : Shape) (arity : Nat) :
    s.account (.container shape arity : Token α)
      = .ok ⟨{ kind := shape.scope, arity := arity } :: t.frames⟩ := by
  simp [account, enter, h, Functor.map, Except.map]

theorem account_variant (h : s.value = .ok (slot, t)) (tag : String) :
    s.account (.variant tag : Token α) = .ok ⟨{ kind := .variant, arity := 1 } :: t.frames⟩ := by
  simp [account, enter, h, Functor.map, Except.map]

/-- A value may stand next. -/
def TakesValue (s : ScopeStack) : Prop :=
  ∃ slot t, s.value = .ok (slot, t)

theorem TakesValue.frames_ne_nil (h : s.TakesValue) : s.frames ≠ [] := by
  obtain ⟨slot, t, h⟩ := h
  grind [value]

/-- A value leaves the scopes open in which it stands. -/
theorem frames_ne_nil_of_value (h : s.value = .ok (slot, t)) : t.frames ≠ [] := by
  grind [value]

/-- A finished document takes no token, and no token finishes a document. -/
theorem frames_ne_nil_of_account {c : Token α} (h : s.account c = .ok t) :
    s.frames ≠ [] ∧ t.frames ≠ [] := by
  cases c <;> obtain ⟨_, h⟩ := Recorder.exists_of_map_snd h
  · grind [enter, value]
  · grind [enter, value]
  · grind [close]
  · grind [tag]
  · grind [value]

theorem account_close (h : t.frames ≠ []) {f : Frame} (hf : f.tagged = false)
    (hfull : f.emitted = f.arity) :
    (⟨f :: t.frames⟩ : ScopeStack).account (.close : Token α) = .ok t := by
  obtain ⟨frames⟩ := t
  obtain _ | ⟨g, outer⟩ := frames
  · exact absurd rfl h
  · simp [account, close, hf, hfull, Functor.map, Except.map]

/-- An object with room for a field takes its tag. -/
theorem account_tag {f : Frame} (hkind : f.kind = .object) (hf : f.tagged = false)
    (hroom : f.emitted < f.arity) (outer : List Frame) (name : String) :
    (⟨f :: outer⟩ : ScopeStack).account (.tag name : Token α)
      = .ok ⟨{ f with tagged := true } :: outer⟩ := by
  have hne : f.emitted ≠ f.arity := Nat.ne_of_lt hroom
  simp [account, tag, hkind, hf, hne, Functor.map, Except.map]

/-- A tagged field takes its value. -/
theorem value_of_tagged {f : Frame} (hkind : f.kind = .object) (hf : f.tagged = false)
    (outer : List Frame) :
    (⟨{ f with tagged := true } :: outer⟩ : ScopeStack).value
      = .ok (⟨f.kind, f.emitted⟩, ⟨{ f with emitted := f.emitted + 1 } :: outer⟩) := by
  obtain ⟨kind, arity, emitted, tagged⟩ := f
  simp only at hkind hf
  simp [value, hkind, hf]

/-- A scope other than an object takes a value as long as it has room. -/
theorem value_of_room {f : Frame} (hkind : f.kind ≠ .object) (hroom : f.emitted < f.arity)
    (outer : List Frame) :
    (⟨f :: outer⟩ : ScopeStack).value
      = .ok (⟨f.kind, f.emitted⟩, ⟨{ f with emitted := f.emitted + 1 } :: outer⟩) := by
  have hne : f.emitted ≠ f.arity := Nat.ne_of_lt hroom
  simp [value, hkind, hne]

/-! ### Whole documents -/

mutual

/-- The tokens of a tree count as one value. -/
theorem accountAll_tokensAppend : ∀ (d : Tree α) {s t : ScopeStack} {slot : Slot}
    (rest : List (Token α)), s.value = .ok (slot, t) →
    s.accountAll (d.tokensAppend rest) = t.accountAll rest
  | .leaf a, s, t, slot, rest, h => accountAll_cons (account_leaf h a) rest
  | .object fs, s, t, slot, rest, h => by
    rw [Tree.tokensAppend, accountAll_cons (account_container h .object fs.length),
      accountAll_fieldTokens fs _ rfl rfl (Nat.zero_add _)]
    exact accountAll_cons (account_close (frames_ne_nil_of_value h) rfl rfl) rest
  | .array ts, s, t, slot, rest, h => by
    have hkind : Shape.array.scope ≠ .object := by decide
    rw [Tree.tokensAppend, accountAll_cons (account_container h .array ts.length),
      accountAll_itemTokens ts _ hkind rfl (Nat.zero_add _)]
    exact accountAll_cons (account_close (frames_ne_nil_of_value h) rfl rfl) rest
  | .tuple ts, s, t, slot, rest, h => by
    have hkind : Shape.tuple.scope ≠ .object := by decide
    rw [Tree.tokensAppend, accountAll_cons (account_container h .tuple ts.length),
      accountAll_itemTokens ts _ hkind rfl (Nat.zero_add _)]
    exact accountAll_cons (account_close (frames_ne_nil_of_value h) rfl rfl) rest
  | .variant tag d, s, t, slot, rest, h => by
    have hkind : ScopeKind.variant ≠ .object := by decide
    rw [Tree.tokensAppend, accountAll_cons (account_variant h tag),
      accountAll_tokensAppend d _ (value_of_room hkind Nat.one_pos _)]
    exact accountAll_cons (account_close (frames_ne_nil_of_value h) rfl rfl) rest

/-- An object with exactly the room for some fields is full after them. -/
theorem accountAll_fieldTokens : ∀ (fs : List (String × Tree α)) {f : Frame} {outer : List Frame}
    (rest : List (Token α)), f.kind = .object → f.tagged = false → f.emitted + fs.length = f.arity →
    (⟨f :: outer⟩ : ScopeStack).accountAll (Tree.fieldTokens fs rest)
      = (⟨{ f with emitted := f.arity } :: outer⟩ : ScopeStack).accountAll rest
  | [], ⟨kind, arity, emitted, tagged⟩, outer, rest, _, _, hroom => by
    obtain rfl : emitted = arity := hroom
    rfl
  | (name, d) :: fs, f, outer, rest, hkind, hf, hroom => by
    rw [List.length_cons] at hroom
    rw [Tree.fieldTokens, accountAll_cons (account_tag hkind hf (by omega) outer name),
      accountAll_tokensAppend d _ (value_of_tagged hkind hf outer)]
    exact accountAll_fieldTokens fs rest hkind hf (by simp only; omega)

/-- Another scope with exactly the room for some elements is full after them. -/
theorem accountAll_itemTokens : ∀ (ts : List (Tree α)) {f : Frame} {outer : List Frame}
    (rest : List (Token α)), f.kind ≠ .object → f.tagged = false → f.emitted + ts.length = f.arity →
    (⟨f :: outer⟩ : ScopeStack).accountAll (Tree.itemTokens ts rest)
      = (⟨{ f with emitted := f.arity } :: outer⟩ : ScopeStack).accountAll rest
  | [], ⟨kind, arity, emitted, tagged⟩, outer, rest, _, _, hroom => by
    obtain rfl : emitted = arity := hroom
    rfl
  | d :: ts, f, outer, rest, hkind, hf, hroom => by
    rw [List.length_cons] at hroom
    rw [Tree.itemTokens, accountAll_tokensAppend d _ (value_of_room hkind (by omega) outer)]
    exact accountAll_itemTokens ts rest hkind hf (by simp only; omega)

end

/-- Where a value is accepted a whole document is. -/
theorem accountAll_tokens (d : Tree α) (h : s.value = .ok (slot, t)) :
    s.accountAll d.tokens = .ok t :=
  accountAll_tokensAppend d [] h

end ScopeStack

/-! ### Calls that are accepted one by one -/

theorem Command.performAll_singleton {σ : Type} [DocumentWriter σ] (c : Command) (w : σ) :
    performAll [c] w = c.perform w := by
  rw [performAll]
  rcases c.perform w with ⟨_ | _, w'⟩ <;> rfl

/-- Commands that are all carried out are carried out one by one. -/
theorem Command.exists_of_performAll_cons {σ : Type} [DocumentWriter σ] {c : Command}
    {cs : List Command} {w w₂ : σ} (h : performAll (c :: cs) w = (.ok (), w₂)) :
    ∃ w₁, c.perform w = (.ok (), w₁) ∧ performAll cs w₁ = (.ok (), w₂) := by
  rw [performAll] at h
  split at h
  · next w₁ hc => exact ⟨w₁, hc, h⟩
  · cases congrArg Prod.fst h

/-- A writer accepts the calls one by one and goes from one state to the other. -/
def Performs {σ : Type} [DocumentWriter σ] (calls : List Call) (w w' : σ) : Prop :=
  Command.performAll (calls.map .call) w = (.ok (), w')

namespace Performs

variable {σ : Type} [DocumentWriter σ] {w w₁ w₂ : σ}

theorem nil (w : σ) : Performs [] w w := rfl

theorem cons {c : Call} (h : DocumentWriter.call c w = (.ok (), w₁)) {cs : List Call}
    (hcs : Performs cs w₁ w₂) : Performs (c :: cs) w w₂ := by
  rw [Performs, List.map_cons, Command.performAll, Command.perform, h]
  exact hcs

theorem of_cons {c : Call} {cs : List Call} (h : Performs (c :: cs) w w₂) :
    ∃ w₁, DocumentWriter.call c w = (.ok (), w₁) ∧ Performs cs w₁ w₂ :=
  Command.exists_of_performAll_cons h

theorem append : ∀ {as : List Call} {w : σ} {bs : List Call}, Performs as w w₁ →
    Performs bs w₁ w₂ → Performs (as ++ bs) w w₂
  | [], w, bs, has, hbs => by
    obtain rfl : w = w₁ := congrArg Prod.snd has
    exact hbs
  | c :: as, w, bs, has, hbs => by
    obtain ⟨w₁, hc, has⟩ := of_cons has
    exact cons hc (append has hbs)

theorem of_append : ∀ {as : List Call} {w : σ} {bs : List Call}, Performs (as ++ bs) w w₂ →
    ∃ w₁, Performs as w w₁ ∧ Performs bs w₁ w₂
  | [], w, bs, h => ⟨w, nil w, h⟩
  | c :: as, w, bs, h => by
    obtain ⟨w₁, hc, h⟩ := of_cons h
    obtain ⟨w', has, hbs⟩ := of_append h
    exact ⟨w', cons hc has, hbs⟩

/-- The end of the document after accepted calls. -/
theorem append_finish : ∀ {calls : List Call} {w : σ}, Performs calls w w₁ →
    DocumentWriter.finish w₁ = (.ok (), w₂) →
    Command.performAll (calls.map .call ++ [.finish]) w = (.ok (), w₂)
  | [], w, hcalls, hfinish => by
    obtain rfl : w = w₁ := congrArg Prod.snd hcalls
    rw [List.map_nil, List.nil_append, Command.performAll, Command.perform, hfinish]
    rfl
  | c :: calls, w, hcalls, hfinish => by
    obtain ⟨w', hc, hcalls⟩ := of_cons hcalls
    rw [List.map_cons, List.cons_append, Command.performAll, Command.perform, hc]
    exact append_finish hcalls hfinish

end Performs

/-! ### Writers that make the checks of their scopes and no others -/

/-- A writer that accepts what its scopes accept, in the states that are `Reliable`. -/
class ScopedWriter (σ : Type) extends DocumentWriter σ where
  scopes : σ → ScopeStack
  /-- Nothing but the scopes leads to a rejection, now or later. -/
  Reliable : σ → Prop
  call_ok {w : σ} {c : Call} {s : ScopeStack} : Reliable w → (scopes w).account c = .ok s →
    ∃ w', call c w = (.ok (), w') ∧ scopes w' = s ∧ Reliable w'
  call_error {w : σ} {c : Call} {e : WriteError} : (scopes w).account c = .error e →
    call c w = (.error e, w)
  finish_ok {w : σ} {s : ScopeStack} : Reliable w → (scopes w).finish = .ok s →
    ∃ w', finish w = (.ok (), w') ∧ scopes w' = s
  finish_error {w : σ} {e : WriteError} : (scopes w).finish = .error e →
    finish w = (.error e, w)

/-- The scopes of a whole document. -/
def ScopeStack.whole : ScopeStack :=
  ⟨[{ kind := .document, arity := 1, emitted := 1 }]⟩

theorem ScopeStack.value_empty : ({} : ScopeStack).value = .ok (⟨.document, 0⟩, .whole) := rfl

theorem ScopedWriter.value_of_fresh {σ : Type} [ScopedWriter σ] {w : σ} (h : scopes w = {}) :
    (scopes w).value = .ok (⟨.document, 0⟩, .whole) := by
  rw [h, ScopeStack.value_empty]

/-- A writer accepts calls that its scopes accept one by one. -/
theorem ScopedWriter.performs_of_accountAll {σ : Type} [ScopedWriter σ] {s : ScopeStack} :
    ∀ {calls : List Call} {w : σ}, Reliable w → (scopes w).accountAll calls = .ok s →
      ∃ w', Performs calls w w' ∧ scopes w' = s ∧ Reliable w'
  | [], w, hw, h => ⟨w, Performs.nil w, Except.ok.inj h, hw⟩
  | c :: calls, w, hw, h => by
    obtain ⟨t, hc, h⟩ := ScopeStack.exists_of_accountAll_cons h
    obtain ⟨w₁, hcall, rfl, hw₁⟩ := call_ok hw hc
    obtain ⟨w₂, hcalls, hs, hw₂⟩ := performs_of_accountAll hw₁ h
    exact ⟨w₂, Performs.cons hcall hcalls, hs, hw₂⟩

instance : ScopedWriter Recorder where
  scopes := Recorder.scopes
  Reliable _ := True
  call_ok {w c s} _ h := ⟨w.log c s, by simp [DocumentWriter.call, Recorder.call, h], rfl, trivial⟩
  call_error {w c e} h := by simp [DocumentWriter.call, Recorder.call, h]
  finish_ok {w s} _ h :=
    ⟨{ w with scopes := s }, by simp [DocumentWriter.finish, Recorder.finish, h], rfl⟩
  finish_error {w e} h := by simp [DocumentWriter.finish, Recorder.finish, h]

namespace TextState

/-- The text state accepts a call exactly where its scopes do. -/
theorem call_eq (f : TextFormat) (s : TextState) (c : Call) :
    (·.2.scopes) <$> s.call f c = s.scopes.account c := by
  cases c with
  | close =>
    simp only [call, ScopeStack.account]
    split
    · next h => rw [h]; rfl
    · next h => rw [h]; split <;> rfl
  | container | variant | tag | leaf =>
    simp only [call, ScopeStack.account]
    split
    · next h => rw [h]; rfl
    · next h => rw [h]; rfl

theorem finish_eq (f : TextFormat) (s : TextState) :
    (·.2.scopes) <$> s.finish f = s.scopes.finish := by
  simp only [finish]
  split
  · next h => rw [h]; rfl
  · next h => rw [h]; rfl

/-- An accepted call has a text. -/
theorem exists_text {scopes : ScopeStack} {x : Except WriteError (String × TextState)}
    (h : (·.2.scopes) <$> x = .ok scopes) : ∃ text s', x = .ok (text, s') ∧ s'.scopes = scopes := by
  cases x with
  | error e => cases h
  | ok p => exact ⟨p.1, p.2, rfl, by simpa [Functor.map, Except.map] using h⟩

theorem eq_error {e : WriteError} {x : Except WriteError (String × TextState)}
    (h : (·.2.scopes) <$> x = .error e) : x = .error e := by
  cases x with
  | error e => simpa [Functor.map, Except.map] using h
  | ok p => cases h

end TextState

/-- A sink without a capacity takes every text. -/
theorem Sink.write_eq_of_unlimited {s : Sink} (h : s.capacity = none) (text : String) :
    s.write text = (true, { s with bytes := s.bytes ++ text.toUTF8 }) := by
  simp [write, h]

instance : ScopedWriter TextWriter where
  scopes w := w.state.scopes
  Reliable w := w.sink.capacity = none ∧ w.sink.flushFails = false
  call_ok {w c s} hw h := by
    rw [← TextState.call_eq w.format] at h
    obtain ⟨text, state, htext, hscopes⟩ := TextState.exists_text h
    refine ⟨⟨w.format, state, { w.sink with bytes := w.sink.bytes ++ text.toUTF8 }⟩, ?_, hscopes, hw⟩
    simp [DocumentWriter.call, TextWriter.call, htext, Sink.write_eq_of_unlimited hw.1]
  call_error {w c e} h := by
    rw [← TextState.call_eq w.format] at h
    simp [DocumentWriter.call, TextWriter.call, TextState.eq_error h]
  finish_ok {w s} hw h := by
    rw [← TextState.finish_eq w.format] at h
    obtain ⟨text, state, htext, hscopes⟩ := TextState.exists_text h
    refine ⟨⟨w.format, state, { w.sink with bytes := w.sink.bytes ++ text.toUTF8 }⟩, ?_, hscopes⟩
    simp [DocumentWriter.finish, TextWriter.finish, htext, Sink.write_eq_of_unlimited hw.1, hw.2]
  finish_error {w e} h := by
    rw [← TextState.finish_eq w.format] at h
    simp [DocumentWriter.finish, TextWriter.finish, TextState.eq_error h]

end SyntaxExport
