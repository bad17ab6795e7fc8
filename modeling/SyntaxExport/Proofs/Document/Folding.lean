import SyntaxExport.Proofs.Document.Log

/-!
# The logs that fold

A log folds to a document exactly where it is the log of that document up to the declared sizes
(`Value.ofEvents?_eq_some_iff`). A fold never forgets an entry: the entries of its root and of its
open containers, from the outside in, are the entries it has read (`Fold.entries_of_step?`), and
a fold that ends well has no open container left.
-/

namespace SyntaxExport

/-- The entry without its declared size. -/
def Event.unsized : Event → Event
  | .scope kind _ => .scope kind 0
  | e => e

/-- The entries of a document in document order. -/
def Value.log (v : Value) : List Event :=
  v.tokens.map Event.ofCall

/-- The entries of a document without the declared sizes. -/
def Value.entries (v : Value) : List Event :=
  v.log.map Event.unsized

namespace Value

/-- The entries of a field: its name and its value. -/
def fieldEntries (field : String × Value) : List Event :=
  .tag field.1 :: field.2.entries

theorem entries_tokensAppend (v : Value) (rest : List Call) :
    ((v.tokensAppend rest).map Event.ofCall).map Event.unsized
      = v.entries ++ (rest.map Event.ofCall).map Event.unsized := by
  rw [Tree.tokensAppend_eq_append, List.map_append, List.map_append]
  rfl

theorem entries_fieldTokens (rest : List Call) : ∀ fs : List (String × Value),
    ((Tree.fieldTokens fs rest).map Event.ofCall).map Event.unsized
      = fs.flatMap fieldEntries ++ (rest.map Event.ofCall).map Event.unsized
  | [] => rfl
  | (name, v) :: fs => by
    rw [Tree.fieldTokens, List.map_cons, List.map_cons, entries_tokensAppend,
      entries_fieldTokens rest fs, List.flatMap_cons]
    simp [fieldEntries, Event.ofCall, Event.unsized]

theorem entries_itemTokens (rest : List Call) : ∀ vs : List Value,
    ((Tree.itemTokens vs rest).map Event.ofCall).map Event.unsized
      = vs.flatMap entries ++ (rest.map Event.ofCall).map Event.unsized
  | [] => rfl
  | v :: vs => by
    rw [Tree.itemTokens, entries_tokensAppend, entries_itemTokens rest vs, List.flatMap_cons,
      List.append_assoc]

theorem entries_object (fs : List (String × Value)) :
    entries (.object fs) = .scope .object 0 :: fs.flatMap fieldEntries ++ [.close] :=
  congrArg (Event.scope .object 0 :: ·) (entries_fieldTokens [.close] fs)

theorem entries_array (vs : List Value) :
    entries (.array vs) = .scope .array 0 :: vs.flatMap entries ++ [.close] :=
  congrArg (Event.scope .array 0 :: ·) (entries_itemTokens [.close] vs)

theorem entries_tuple (vs : List Value) :
    entries (.tuple vs) = .scope .tuple 0 :: vs.flatMap entries ++ [.close] :=
  congrArg (Event.scope .tuple 0 :: ·) (entries_itemTokens [.close] vs)

theorem entries_variant (tag : String) (v : Value) :
    entries (.variant tag v) = .variant tag :: v.entries ++ [.close] :=
  congrArg (Event.variant tag :: ·) (entries_tokensAppend v [.close])

end Value

/-! ### What a fold has read -/

/-- The entries that a container under construction has read. -/
def Pending.entries : Pending → List Event
  | .object done tag =>
    .scope .object 0 :: done.reverse.flatMap Value.fieldEntries ++ (tag.map Event.tag).toList
  | .array done => .scope .array 0 :: done.reverse.flatMap Value.entries
  | .tuple done => .scope .tuple 0 :: done.reverse.flatMap Value.entries
  | .variant tag argument => .variant tag :: argument.toList.flatMap Value.entries

namespace Pending

/-- A part adds its own entries. -/
theorem entries_of_push? {p q : Pending} {v : Value} (h : p.push? v = some q) :
    q.entries = p.entries ++ v.entries := by
  cases p with
  | object done tag =>
    cases tag with
    | none => cases h
    | some name =>
      obtain rfl := Option.some.inj h
      simp [entries, Value.fieldEntries]
  | array done | tuple done =>
    obtain rfl := Option.some.inj h
    simp [entries]
  | variant tag argument =>
    cases argument with
    | some _ => cases h
    | none =>
      obtain rfl := Option.some.inj h
      simp [entries]

/-- Closing a container adds its close. -/
theorem entries_of_build? {p : Pending} {v : Value} (h : p.build? = some v) :
    v.entries = p.entries ++ [.close] := by
  cases p with
  | object done tag =>
    cases tag with
    | some _ => cases h
    | none =>
      obtain rfl := Option.some.inj h
      simp [entries, Value.entries_object]
  | array done =>
    obtain rfl := Option.some.inj h
    simp [entries, Value.entries_array]
  | tuple done =>
    obtain rfl := Option.some.inj h
    simp [entries, Value.entries_tuple]
  | variant tag argument =>
    cases argument with
    | none => cases h
    | some v =>
      obtain rfl := Option.some.inj h
      simp [entries, Value.entries_variant]

end Pending

namespace Fold

/-- The entries that a fold has read: the finished root, then the open containers from the outside
in. -/
def entries (f : Fold) : List Event :=
  f.root.toList.flatMap Value.entries ++ f.pending.reverse.flatMap Pending.entries

@[simp] theorem entries_push (f : Fold) (p : Pending) :
    entries { f with pending := p :: f.pending } = f.entries ++ p.entries := by
  simp [entries]

theorem entries_of_accept? {f g : Fold} {v : Value} (h : f.accept? v = some g) :
    g.entries = f.entries ++ v.entries := by
  obtain ⟨pending, root⟩ := f
  cases pending with
  | cons p outer =>
    obtain ⟨q, hq, rfl⟩ := Option.map_eq_some_iff.mp h
    simp [entries, Pending.entries_of_push? hq]
  | nil =>
    cases root with
    | some _ => cases h
    | none =>
      obtain rfl := Option.some.inj h
      simp [entries]

/-- A fold never forgets an entry. -/
theorem entries_of_step? {f g : Fold} {e : Event} (h : f.step? e = some g) :
    g.entries = f.entries ++ [e.unsized] := by
  cases e with
  | scope kind arity =>
    cases kind with
    | object | array | tuple =>
      obtain rfl := Option.some.inj h
      simp [Pending.entries, Event.unsized]
    | variant | document => cases h
  | variant tag =>
    obtain rfl := Option.some.inj h
    simp [Pending.entries, Event.unsized]
  | scalar s => exact entries_of_accept? h
  | tag name =>
    obtain ⟨pending, root⟩ := f
    rw [step?] at h
    split at h
    · next done outer hpending =>
      obtain rfl : pending = .object done none :: outer := hpending
      obtain rfl := Option.some.inj h
      simp [entries, Pending.entries, Event.unsized]
    · cases h
  | close =>
    obtain ⟨pending, root⟩ := f
    cases pending with
    | nil => cases h
    | cons p outer =>
      obtain ⟨v, hv, h⟩ := Option.bind_eq_some_iff.mp h
      rw [entries_of_accept? h, Pending.entries_of_build? hv]
      simp [entries, Event.unsized]

theorem entries_of_foldlM : ∀ {es : List Event} {f g : Fold}, es.foldlM step? f = some g →
    g.entries = f.entries ++ es.map Event.unsized
  | [], f, g, h => by
    obtain rfl := Option.some.inj h
    simp
  | e :: es, f, g, h => by
    rw [List.foldlM_cons] at h
    obtain ⟨f₁, hstep, h⟩ := Option.bind_eq_some_iff.mp h
    rw [entries_of_foldlM h, entries_of_step? hstep]
    simp

/-- The declared sizes are not read. -/
theorem step?_unsized (f : Fold) (e : Event) : f.step? e.unsized = f.step? e := by
  cases e with
  | scope kind arity => cases kind <;> rfl
  | variant | close | tag | scalar => rfl

theorem foldlM_unsized : ∀ (es : List Event) (f : Fold),
    (es.map Event.unsized).foldlM step? f = es.foldlM step? f
  | [], _ => rfl
  | e :: es, f => by
    rw [List.map_cons, List.foldlM_cons, List.foldlM_cons, step?_unsized]
    exact congrArg _ (funext fun g => foldlM_unsized es g)

theorem foldlM_entries (v : Value) (f : Fold) : v.entries.foldlM step? f = f.accept? v := by
  have hlog := calls?_tokensAppend v [] f
  rw [calls?, ← foldlM_unsized] at hlog
  exact hlog.trans (Option.bind_fun_some _)

/-- The entries of a document hand over that document, whatever sizes they declare. -/
theorem foldlM_of_entries {es : List Event} {v : Value} (h : es.map Event.unsized = v.entries)
    (f : Fold) : es.foldlM step? f = f.accept? v := by
  rw [← foldlM_unsized, h, foldlM_entries]

/-- The entries of documents one after the other hand over one after the other. -/
theorem foldlM_flatMap_entries : ∀ (vs : List Value) (f : Fold),
    (vs.flatMap Value.entries).foldlM step? f = vs.foldlM accept? f
  | [], _ => rfl
  | v :: vs, f => by
    rw [List.flatMap_cons, List.foldlM_append, foldlM_entries, List.foldlM_cons]
    exact congrArg _ (funext fun g => foldlM_flatMap_entries vs g)

end Fold

/-! ### The grammar -/

namespace Value

/-- The logs that fold to a document are its log with any declared sizes. -/
theorem ofEvents?_eq_some_iff {es : List Event} {v : Value} :
    ofEvents? es = some v ↔ es.map Event.unsized = v.entries := by
  constructor
  · intro h
    rw [ofEvents?] at h
    split at h
    · next root hfold =>
      obtain rfl : root = some v := h
      have hentries := Fold.entries_of_foldlM hfold
      simpa [Fold.entries] using hentries.symm
    · cases h
  · intro h
    rw [ofEvents?, Fold.foldlM_of_entries h]
    rfl

theorem entries_injective {v w : Value} (h : v.entries = w.entries) : v = w := by
  have hv : ofEvents? v.log = some v := ofEvents?_eq_some_iff.mpr rfl
  have hw : ofEvents? v.log = some w := ofEvents?_eq_some_iff.mpr h
  exact Option.some.inj (hv.symm.trans hw)

end Value

end SyntaxExport
