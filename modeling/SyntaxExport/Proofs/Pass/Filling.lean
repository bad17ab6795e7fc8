import SyntaxExport.Proofs.Document.Accepts
import SyntaxExport.Proofs.Pass.Expansion

/-!
# Filling slots

`Tree.fill` gives the document of a tree without a writer: it fills the slots from the location cursor
and the numbering of identities, and fails at the first fault. A run over the tree does the same to
the slots and makes the calls of that document (`Pass.run_outcome`). No call is rejected by the scopes
of the writer, so a run fails for the reasons of `Tree.fill` and for no others.
-/

namespace SyntaxExport

/-- What slots are filled from. -/
structure Slots where
  cursor : LocationCursor
  identities : IdentityTable

/-- A relative location as an object. -/
def LocationDelta.value (ctx : Context) (paths : PathRule) :
    LocationDelta → Except ExportError Value
  | .absent => .ok (.object [])
  | .column c => .ok (.object [("column", .leaf (.unsigned c))])
  | .line l c => .ok (.object [("line", .leaf (.unsigned l)), ("column", .leaf (.unsigned c))])
  | .file f l c =>
    match ctx.fileName? f with
    | none => .error (.unknownFile f)
    | some name =>
      .ok (.object [("file", .leaf (.string (paths.normalize name))), ("line", .leaf (.unsigned l)),
        ("column", .leaf (.unsigned c))])

/-- The value in the place of a leaf, and the slots after it. -/
def Item.fill (ctx : Context) (opts : Options) : Item → Slots → Except ExportError (Value × Slots)
  | .scalar x, s => .ok (.leaf x, s)
  | .identity node, s =>
    .ok (.leaf (.string (s.identities.render opts.identityMode node.identity).1),
      { s with identities := (s.identities.render opts.identityMode node.identity).2 })
  | .location loc, s =>
    match (s.cursor.delta loc).value ctx opts.paths with
    | .error e => .error e
    | .ok v => .ok (v, { s with cursor := s.cursor.advance loc })
  | .define _, _ => .error .cyclic
  | .fault e, _ => .error e

namespace Tree

mutual

/-- The document of a tree, and the slots after it. -/
def fill (ctx : Context) (opts : Options) :
    Tree Item → Slots → Except ExportError (Value × Slots)
  | .leaf a, s => a.fill ctx opts s
  | .object fs, s =>
    match fillFields ctx opts fs s with
    | .error e => .error e
    | .ok (fs, s) => .ok (.object fs, s)
  | .array ts, s =>
    match fillItems ctx opts ts s with
    | .error e => .error e
    | .ok (ts, s) => .ok (.array ts, s)
  | .tuple ts, s =>
    match fillItems ctx opts ts s with
    | .error e => .error e
    | .ok (ts, s) => .ok (.tuple ts, s)
  | .variant tag t, s =>
    match fill ctx opts t s with
    | .error e => .error e
    | .ok (t, s) => .ok (.variant tag t, s)

/-- The fields of the document of an object. -/
def fillFields (ctx : Context) (opts : Options) :
    List (String × Tree Item) → Slots → Except ExportError (List (String × Value) × Slots)
  | [], s => .ok ([], s)
  | (name, t) :: fs, s =>
    match fill ctx opts t s with
    | .error e => .error e
    | .ok (t, s) =>
      match fillFields ctx opts fs s with
      | .error e => .error e
      | .ok (fs, s) => .ok ((name, t) :: fs, s)

/-- The elements of the document of an array or tuple. -/
def fillItems (ctx : Context) (opts : Options) :
    List (Tree Item) → Slots → Except ExportError (List Value × Slots)
  | [], s => .ok ([], s)
  | t :: ts, s =>
    match fill ctx opts t s with
    | .error e => .error e
    | .ok (t, s) =>
      match fillItems ctx opts ts s with
      | .error e => .error e
      | .ok (ts, s) => .ok (t :: ts, s)

end

end Tree

/-! ### Token by token -/

/-- The calls that a token stands for, and the slots after it. -/
def Token.fill (ctx : Context) (opts : Options) :
    Token Item → Slots → Except ExportError (List Call × Slots)
  | .container shape arity, s => .ok ([.container shape arity], s)
  | .variant name, s => .ok ([.variant name], s)
  | .close, s => .ok ([.close], s)
  | .tag name, s => .ok ([.tag name], s)
  | .leaf a, s =>
    match a.fill ctx opts s with
    | .error e => .error e
    | .ok (v, s) => .ok (v.tokens, s)

/-- The calls that tokens stand for, and the slots after them. -/
def fillTokens (ctx : Context) (opts : Options) :
    List (Token Item) → Slots → Except ExportError (List Call × Slots)
  | [], s => .ok ([], s)
  | t :: ts, s =>
    match t.fill ctx opts s with
    | .error e => .error e
    | .ok (calls, s) =>
      match fillTokens ctx opts ts s with
      | .error e => .error e
      | .ok (rest, s) => .ok (calls ++ rest, s)

namespace Tree

variable {ctx : Context} {opts : Options}

section Inversion

variable {s s' : Slots} {v : Value}

theorem of_fill_object {fs : List (String × Tree Item)}
    (h : (Tree.object fs).fill ctx opts s = .ok (v, s')) :
    ∃ gs, fillFields ctx opts fs s = .ok (gs, s') ∧ v = .object gs := by
  rw [fill] at h
  split at h
  · cases h
  · next hfs => cases h; exact ⟨_, hfs, rfl⟩

theorem of_fill_array {ts : List (Tree Item)} (h : (Tree.array ts).fill ctx opts s = .ok (v, s')) :
    ∃ vs, fillItems ctx opts ts s = .ok (vs, s') ∧ v = .array vs := by
  rw [fill] at h
  split at h
  · cases h
  · next hts => cases h; exact ⟨_, hts, rfl⟩

theorem of_fill_tuple {ts : List (Tree Item)} (h : (Tree.tuple ts).fill ctx opts s = .ok (v, s')) :
    ∃ vs, fillItems ctx opts ts s = .ok (vs, s') ∧ v = .tuple vs := by
  rw [fill] at h
  split at h
  · cases h
  · next hts => cases h; exact ⟨_, hts, rfl⟩

theorem of_fill_variant {tag : String} {t : Tree Item}
    (h : (Tree.variant tag t).fill ctx opts s = .ok (v, s')) :
    ∃ u, t.fill ctx opts s = .ok (u, s') ∧ v = .variant tag u := by
  rw [fill] at h
  split at h
  · cases h
  · next ht => cases h; exact ⟨_, ht, rfl⟩

theorem of_fillFields_cons {name : String} {t : Tree Item} {fs : List (String × Tree Item)}
    {gs : List (String × Value)} (h : fillFields ctx opts ((name, t) :: fs) s = .ok (gs, s')) :
    ∃ v s₁ hs, t.fill ctx opts s = .ok (v, s₁) ∧ fillFields ctx opts fs s₁ = .ok (hs, s')
      ∧ gs = (name, v) :: hs := by
  rw [fillFields] at h
  split at h
  · cases h
  · next ht =>
    split at h
    · cases h
    · next hfs => cases h; exact ⟨_, _, _, ht, hfs, rfl⟩

theorem of_fillItems_cons {t : Tree Item} {ts : List (Tree Item)} {vs : List Value}
    (h : fillItems ctx opts (t :: ts) s = .ok (vs, s')) :
    ∃ v s₁ us, t.fill ctx opts s = .ok (v, s₁) ∧ fillItems ctx opts ts s₁ = .ok (us, s')
      ∧ vs = v :: us := by
  rw [fillItems] at h
  split at h
  · cases h
  · next ht =>
    split at h
    · cases h
    · next hts => cases h; exact ⟨_, _, _, ht, hts, rfl⟩

end Inversion

theorem length_of_fillFields : ∀ {fs : List (String × Tree Item)} {s s' : Slots}
    {gs : List (String × Value)}, fillFields ctx opts fs s = .ok (gs, s') → gs.length = fs.length
  | [], s, s', gs, h => by
    cases h
    rfl
  | (name, t) :: fs, s, s', gs, h => by
    obtain ⟨v, s₁, hs, -, hfs, rfl⟩ := of_fillFields_cons h
    rw [List.length_cons, List.length_cons, length_of_fillFields hfs]

theorem length_of_fillItems : ∀ {ts : List (Tree Item)} {s s' : Slots} {vs : List Value},
    fillItems ctx opts ts s = .ok (vs, s') → vs.length = ts.length
  | [], s, s', vs, h => by
    cases h
    rfl
  | t :: ts, s, s', vs, h => by
    obtain ⟨v, s₁, us, -, hts, rfl⟩ := of_fillItems_cons h
    rw [List.length_cons, List.length_cons, length_of_fillItems hts]

mutual

/-- Filled token by token, a tree gives the tokens of its document. -/
theorem fillTokens_tokensAppend (ctx : Context) (opts : Options) : ∀ (t : Tree Item)
    (rest : List (Token Item)) (s : Slots), fillTokens ctx opts (t.tokensAppend rest) s
      = (t.fill ctx opts s).bind fun (v, s) =>
        (fillTokens ctx opts rest s).map fun (calls, s) => (v.tokensAppend calls, s)
  | .leaf a, rest, s => by
    simp only [tokensAppend, fillTokens, Token.fill, fill]
    cases a.fill ctx opts s with
    | error e => rfl
    | ok x =>
      simp only [Except.bind]
      cases fillTokens ctx opts rest x.2 with
      | error e => rfl
      | ok y => exact congrArg (fun l => Except.ok (l, y.2)) (tokensAppend_eq_append x.1 y.1).symm
  | .object fs, rest, s => by
    simp only [tokensAppend, fillTokens, Token.fill, fill, fillTokens_fieldTokens ctx opts fs]
    cases hfs : fillFields ctx opts fs s with
    | error e => rfl
    | ok x =>
      simp only [Except.bind]
      cases fillTokens ctx opts rest x.2 with
      | error e => rfl
      | ok y => simp [Except.map, tokensAppend, length_of_fillFields hfs]
  | .array ts, rest, s => by
    simp only [tokensAppend, fillTokens, Token.fill, fill, fillTokens_itemTokens ctx opts ts]
    cases hts : fillItems ctx opts ts s with
    | error e => rfl
    | ok x =>
      simp only [Except.bind]
      cases fillTokens ctx opts rest x.2 with
      | error e => rfl
      | ok y => simp [Except.map, tokensAppend, length_of_fillItems hts]
  | .tuple ts, rest, s => by
    simp only [tokensAppend, fillTokens, Token.fill, fill, fillTokens_itemTokens ctx opts ts]
    cases hts : fillItems ctx opts ts s with
    | error e => rfl
    | ok x =>
      simp only [Except.bind]
      cases fillTokens ctx opts rest x.2 with
      | error e => rfl
      | ok y => simp [Except.map, tokensAppend, length_of_fillItems hts]
  | .variant tag t, rest, s => by
    simp only [tokensAppend, fillTokens, Token.fill, fill, fillTokens_tokensAppend ctx opts t]
    cases t.fill ctx opts s with
    | error e => rfl
    | ok x =>
      simp only [Except.bind]
      cases fillTokens ctx opts rest x.2 <;> rfl

theorem fillTokens_fieldTokens (ctx : Context) (opts : Options) :
    ∀ (fs : List (String × Tree Item)) (rest : List (Token Item)) (s : Slots),
    fillTokens ctx opts (fieldTokens fs rest) s
      = (fillFields ctx opts fs s).bind fun (gs, s) =>
        (fillTokens ctx opts rest s).map fun (calls, s) => (fieldTokens gs calls, s)
  | [], rest, s => by
    simp only [fieldTokens, fillFields, Except.bind]
    cases fillTokens ctx opts rest s <;> rfl
  | (name, t) :: fs, rest, s => by
    simp only [fieldTokens, fillTokens, Token.fill, fillFields, fillTokens_tokensAppend ctx opts t]
    cases t.fill ctx opts s with
    | error e => rfl
    | ok x =>
      simp only [Except.bind, fillTokens_fieldTokens ctx opts fs]
      cases fillFields ctx opts fs x.2 with
      | error e => rfl
      | ok y =>
        simp only
        cases fillTokens ctx opts rest y.2 <;> rfl

theorem fillTokens_itemTokens (ctx : Context) (opts : Options) :
    ∀ (ts : List (Tree Item)) (rest : List (Token Item)) (s : Slots),
    fillTokens ctx opts (itemTokens ts rest) s
      = (fillItems ctx opts ts s).bind fun (vs, s) =>
        (fillTokens ctx opts rest s).map fun (calls, s) => (itemTokens vs calls, s)
  | [], rest, s => by
    simp only [itemTokens, fillItems, Except.bind]
    cases fillTokens ctx opts rest s <;> rfl
  | t :: ts, rest, s => by
    simp only [itemTokens, fillItems, fillTokens_tokensAppend ctx opts t]
    cases t.fill ctx opts s with
    | error e => rfl
    | ok x =>
      simp only [Except.bind, fillTokens_itemTokens ctx opts ts]
      cases fillItems ctx opts ts x.2 with
      | error e => rfl
      | ok y =>
        simp only
        cases fillTokens ctx opts rest y.2 <;> rfl

end

theorem fillTokens_tokens (ctx : Context) (opts : Options) (t : Tree Item) (s : Slots) :
    fillTokens ctx opts t.tokens s = (t.fill ctx opts s).map fun (v, s) => (v.tokens, s) := by
  rw [tokens, fillTokens_tokensAppend]
  cases t.fill ctx opts s <;> rfl

end Tree

/-! ### Errors -/

/-- An error comes from a leaf. -/
theorem exists_leaf_of_fillTokens {ctx : Context} {opts : Options} {e : ExportError} :
    ∀ {ts : List (Token Item)} {s : Slots}, fillTokens ctx opts ts s = .error e →
      ∃ a s', .leaf a ∈ ts ∧ a.fill ctx opts s' = .error e
  | t :: ts, s, h => by
    rw [fillTokens] at h
    split at h
    · next he =>
      cases h
      cases t with
      | container | variant | close | tag => cases he
      | leaf a =>
        rw [Token.fill] at he
        split at he
        · next ha =>
          cases he
          exact ⟨a, s, List.mem_cons_self, ha⟩
        · cases he
    · split at h
      · next hrest =>
        cases h
        obtain ⟨a, s', hmem, ha⟩ := exists_leaf_of_fillTokens hrest
        exact ⟨a, s', List.mem_cons_of_mem t hmem, ha⟩
      · cases h

theorem Tree.exists_leaf_of_fill {ctx : Context} {opts : Options} {e : ExportError} {t : Tree Item}
    {s : Slots} (h : t.fill ctx opts s = .error e) :
    ∃ a s', .leaf a ∈ t.tokens ∧ a.fill ctx opts s' = .error e := by
  have htokens : fillTokens ctx opts t.tokens s = .error e := by
    rw [Tree.fillTokens_tokens, h]
    rfl
  exact exists_leaf_of_fillTokens htokens

namespace Tree

/-! ### Trees of nodes -/

/-- Filling a slot fails for no rejection by the writer. -/
theorem ne_write_of_fill_leaf {a : Item} (ha : a.IsNoRejection) {s : Slots} {e : ExportError}
    (h : a.fill ctx opts s = .error e) : ∀ w, e ≠ .write w := by
  intro w
  cases a with
  | scalar | identity => cases h
  | location loc =>
    rw [Item.fill] at h
    cases hd : s.cursor.delta loc with
    | absent | column | line => rw [hd] at h; cases h
    | file f l c =>
      rw [hd, LocationDelta.value] at h
      cases hname : ctx.fileName? f with
      | none =>
        rw [hname] at h
        obtain rfl := Except.error.inj h
        nofun
      | some name => rw [hname] at h; cases h
  | define site =>
    obtain rfl := Except.error.inj h
    nofun
  | fault e' =>
    obtain rfl := Except.error.inj h
    rintro rfl
    exact ha w rfl

/-- A tree of nodes fails for no rejection by the writer. -/
theorem ne_write_of_fill {t : Tree Item} {s : Slots} {e : ExportError}
    (ht : t.Formed Item.IsNoRejection) (h : t.fill ctx opts s = .error e) : ∀ w, e ≠ .write w := by
  obtain ⟨a, s', ha, herror⟩ := exists_leaf_of_fill h
  exact ne_write_of_fill_leaf (ht.of_mem ha) herror

/-- What fills a slot is no tuple, and has no node inside. -/
theorem formed_of_fill_leaf {a : Item} {s s' : Slots} {v : Value}
    (h : a.fill ctx opts s = .ok (v, s')) : v.Formed (fun _ => True) ∧ v.tupleSize? = none := by
  cases a with
  | scalar | identity => cases h; exact ⟨trivial, rfl⟩
  | location loc =>
    rw [Item.fill] at h
    split at h
    · cases h
    · next hv =>
      cases h
      cases hd : s.cursor.delta loc with
      | absent | column | line =>
        rw [hd] at hv
        cases hv
        simp [Formed, FieldsFormed, tupleSize?]
      | file f l c =>
        rw [hd, LocationDelta.value] at hv
        split at hv
        · cases hv
        · cases hv
          simp [Formed, FieldsFormed, tupleSize?]
  | define | fault => cases h

mutual

/-- The document of a tree of nodes has the forms of the tree. -/
theorem formed_of_fill {p : Item → Prop} : ∀ {t : Tree Item} {s s' : Slots} {v : Value},
    t.Formed p → t.fill ctx opts s = .ok (v, s') →
    v.Formed (fun _ => True) ∧ v.tupleSize? = t.tupleSize?
  | .leaf _, _, _, _, _, h => formed_of_fill_leaf h
  | .object fs, s, s', v, ht, h => by
    obtain ⟨gs, hfs, rfl⟩ := of_fill_object h
    exact ⟨formed_of_fillFields ht hfs, rfl⟩
  | .array ts, s, s', v, ht, h => by
    obtain ⟨vs, hts, rfl⟩ := of_fill_array h
    exact ⟨formed_of_fillItems ht hts, rfl⟩
  | .tuple ts, s, s', v, ht, h => by
    obtain ⟨vs, hts, rfl⟩ := of_fill_tuple h
    exact ⟨formed_of_fillItems ht hts, congrArg some (length_of_fillItems hts)⟩
  | .variant tag t, s, s', v, ht, h => by
    obtain ⟨u, ht', rfl⟩ := of_fill_variant h
    obtain ⟨hformed, hsize⟩ := formed_of_fill ht.1 ht'
    refine ⟨⟨hformed, ?_⟩, rfl⟩
    rw [hsize]
    exact ht.2

theorem formed_of_fillFields {p : Item → Prop} : ∀ {fs : List (String × Tree Item)}
    {s s' : Slots} {gs : List (String × Value)}, FieldsFormed p fs →
    fillFields ctx opts fs s = .ok (gs, s') → FieldsFormed (fun _ => True) gs
  | [], _, _, _, _, h => by
    cases h
    trivial
  | (name, t) :: fs, s, s', gs, hfs, h => by
    obtain ⟨v, s₁, hs, ht, hrest, rfl⟩ := of_fillFields_cons h
    exact ⟨(formed_of_fill hfs.1 ht).1, formed_of_fillFields hfs.2 hrest⟩

theorem formed_of_fillItems {p : Item → Prop} : ∀ {ts : List (Tree Item)} {s s' : Slots}
    {vs : List Value}, ItemsFormed p ts → fillItems ctx opts ts s = .ok (vs, s') →
    ItemsFormed (fun _ => True) vs
  | [], _, _, _, _, h => by
    cases h
    trivial
  | t :: ts, s, s', vs, hts, h => by
    obtain ⟨v, s₁, us, ht, hrest, rfl⟩ := of_fillItems_cons h
    exact ⟨(formed_of_fill hts.1 ht).1, formed_of_fillItems hts.2 hrest⟩

end

end Tree

/-! ### Runs -/

namespace Pass

variable {σ : Type}

/-- A pass with slots to fill from. -/
def ofSlots (s : Slots) (w : σ) : Pass σ :=
  ⟨s.cursor, s.identities, w⟩

theorem all_map_call [DocumentWriter σ] (s : Slots) {w' : σ} : ∀ {calls : List Call} {w : σ},
    Performs calls w w' → all (calls.map call) (ofSlots s w) = (.ok (), ofSlots s w')
  | [], w, h => by
    obtain rfl : w = w' := congrArg Prod.snd h
    rfl
  | c :: calls, w, h => by
    obtain ⟨w₁, hc, hcalls⟩ := Performs.of_cons h
    rw [List.map_cons, all, ofSlots, call, hc]
    exact all_map_call s hcalls

theorem call_ofSlots [DocumentWriter σ] {c : Call} {w w' : σ} (s : Slots)
    (h : DocumentWriter.call c w = (.ok (), w')) :
    call c (ofSlots s w) = (.ok (), ofSlots s w') := by
  rw [ofSlots, call, h]
  rfl

variable [ScopedWriter σ]

/-- What a part of a pass comes to, given what the slots come to: either it makes the calls of the
filled slots, none is rejected, and the scopes are `after`; or it fails as the slots do, in the place
of a value. -/
def Outcome (step : PassStep σ) (s : Slots) (w : σ) (after : ScopeStack) :
    Except ExportError (List Call × Slots) → Prop
  | .ok (calls, s') => ∃ w', step (ofSlots s w) = (.ok (), ofSlots s' w') ∧ Performs calls w w'
      ∧ ScopedWriter.scopes w' = after ∧ ScopedWriter.Reliable w'
  | .error e => ∃ p, step (ofSlots s w) = (.error e, p)
      ∧ (ScopedWriter.scopes p.writer).TakesValue

theorem outcome_call {s : Slots} {w : σ} {c : Call} {after : ScopeStack}
    (hw : ScopedWriter.Reliable w) (h : (ScopedWriter.scopes w).account c = .ok after) :
    Outcome (call c) s w after (.ok ([c], s)) := by
  obtain ⟨w', hc, hs, hw'⟩ := ScopedWriter.call_ok hw h
  refine ⟨w', ?_, Performs.cons hc (Performs.nil w'), hs, hw'⟩
  rw [ofSlots, call, hc]
  rfl

/-- Parts after each other come to what they come to one by one. -/
theorem outcome_cons {step : PassStep σ} {steps : List (PassStep σ)} {s : Slots} {w : σ}
    {mid after : ScopeStack} {x : Except ExportError (List Call × Slots)}
    {y : Slots → Except ExportError (List Call × Slots)} (hx : Outcome step s w mid x)
    (hy : ∀ s w, ScopedWriter.Reliable w → ScopedWriter.scopes w = mid →
      Outcome (all steps) s w after (y s)) :
    Outcome (all (step :: steps)) s w after
      (x.bind fun (calls, s) => (y s).map fun (rest, s) => (calls ++ rest, s)) := by
  cases x with
  | error e =>
    obtain ⟨p, hstep, hp⟩ := hx
    refine ⟨p, ?_, hp⟩
    rw [all, hstep]
  | ok x =>
    obtain ⟨calls, s₁⟩ := x
    obtain ⟨w₁, hstep, hcalls, hs, hw₁⟩ := hx
    have hsteps := hy s₁ w₁ hw₁ hs
    cases hys : y s₁ with
    | error e =>
      rw [hys] at hsteps
      obtain ⟨p, hrest, hp⟩ := hsteps
      simp only [Except.bind, hys, Except.map]
      refine ⟨p, ?_, hp⟩
      rw [all, hstep]
      exact hrest
    | ok z =>
      obtain ⟨rest, s₂⟩ := z
      rw [hys] at hsteps
      obtain ⟨w₂, hrest, hcalls₂, hs₂, hw₂⟩ := hsteps
      simp only [Except.bind, hys, Except.map]
      refine ⟨w₂, ?_, hcalls.append hcalls₂, hs₂, hw₂⟩
      rw [all, hstep]
      exact hrest

/-! ### Leaves -/

/-- An object whose fields are scalars. -/
def scalarFields (fs : List (String × Scalar)) : List (String × Value) :=
  fs.map fun f => (f.1, .leaf f.2)

theorem fieldTokens_scalarFields (rest : List Call) : ∀ fs : List (String × Scalar),
    Tree.fieldTokens (scalarFields fs) rest = fs.flatMap (fun f => [.tag f.1, .leaf f.2]) ++ rest
  | [] => rfl
  | f :: fs => by
    have ih := fieldTokens_scalarFields rest fs
    simp only [scalarFields] at ih
    simp [scalarFields, Tree.fieldTokens, Tree.tokensAppend, ih]

/-- The value of a relative location is an object of scalars, and it is written field by field. -/
theorem exists_scalarFields {ctx : Context} {paths : PathRule} {d : LocationDelta} {v : Value}
    (h : d.value ctx paths = .ok v) : ∃ fs : List (String × Scalar),
      v = .object (scalarFields fs) ∧ d.fieldCount = fs.length
        ∧ (deltaFields ctx paths d : List (PassStep σ)) = fs.map fun f => field f.1 f.2 := by
  cases d with
  | absent => exact ⟨[], (Except.ok.inj h).symm, rfl, rfl⟩
  | column c => exact ⟨[("column", .unsigned c)], (Except.ok.inj h).symm, rfl, rfl⟩
  | line l c =>
    exact ⟨[("line", .unsigned l), ("column", .unsigned c)], (Except.ok.inj h).symm, rfl, rfl⟩
  | file f l c =>
    rw [LocationDelta.value] at h
    split at h
    · cases h
    · next name hname =>
      refine ⟨[("file", .string (paths.normalize name)), ("line", .unsigned l),
        ("column", .unsigned c)], (Except.ok.inj h).symm, rfl, ?_⟩
      simp [deltaFields, fileField, hname]

theorem location_eq (ctx : Context) (paths : PathRule) (loc : Option SourceLocation) (s : Slots)
    (w : σ) : location ctx paths loc (ofSlots s w)
      = all (call (.container .object (s.cursor.delta loc).fieldCount)
        :: deltaFields ctx paths (s.cursor.delta loc) ++ [moveTo loc, call .close]) (ofSlots s w) :=
  rfl

theorem location_of_performs {ctx : Context} {paths : PathRule} {loc : Option SourceLocation}
    {s : Slots} {w w' : σ} {v : Value} (hv : (s.cursor.delta loc).value ctx paths = .ok v)
    (h : Performs v.tokens w w') : location ctx paths loc (ofSlots s w)
      = (.ok (), ofSlots { s with cursor := s.cursor.advance loc } w') := by
  obtain ⟨fs, rfl, hcount, hfields⟩ := exists_scalarFields (σ := σ) hv
  rw [Tree.tokens, Tree.tokensAppend, fieldTokens_scalarFields] at h
  obtain ⟨w₁, hopen, h⟩ := h.of_cons
  obtain ⟨w₂, hinner, h⟩ := h.of_append
  obtain ⟨w₃, hclose, h⟩ := h.of_cons
  obtain rfl : w₃ = w' := congrArg Prod.snd h
  have hsteps : all (fs.map fun f => field f.1 f.2) (ofSlots s w₁) = (.ok (), ofSlots s w₂) := by
    have hcalls := all_map_call s hinner
    rw [List.map_flatMap, all_flatMap] at hcalls
    exact hcalls
  have hlength : (scalarFields fs).length = fs.length := List.length_map _
  rw [hlength] at hopen
  rw [location_eq, hcount, hfields, List.cons_append, all, call_ofSlots s hopen]
  simp only
  rw [all_append, all, hsteps]
  simp only [all_singleton]
  rw [all, moveTo]
  simp only [all_singleton]
  exact call_ofSlots { s with cursor := s.cursor.advance loc } hclose

/-- A location in no known file is left open after the tag of its file. -/
theorem location_of_unknownFile {ctx : Context} {paths : PathRule} {loc : Option SourceLocation}
    {s : Slots} {w : σ} {after : ScopeStack} {slot : Slot} {e : ExportError}
    (hw : ScopedWriter.Reliable w) (ha : (ScopedWriter.scopes w).value = .ok (slot, after))
    (he : (s.cursor.delta loc).value ctx paths = .error e) :
    ∃ p, location ctx paths loc (ofSlots s w) = (.error e, p)
      ∧ (ScopedWriter.scopes p.writer).TakesValue := by
  cases hd : s.cursor.delta loc with
  | absent => rw [hd] at he; cases he
  | column => rw [hd] at he; cases he
  | line => rw [hd] at he; cases he
  | file f l c =>
    rw [hd, LocationDelta.value] at he
    split at he
    · next hname =>
      obtain rfl := Except.error.inj he
      obtain ⟨w₁, hopen, hs₁, hw₁⟩ :=
        ScopedWriter.call_ok hw (ScopeStack.account_container ha .object 3)
      have htag := ScopeStack.account_tag (α := Scalar) (f := { kind := .object, arity := 3 }) rfl rfl
        (by decide) after.frames "file"
      obtain ⟨w₂, hfile, hs₂, -⟩ := ScopedWriter.call_ok hw₁ (hs₁ ▸ htag)
      refine ⟨ofSlots s w₂, ?_, ?_⟩
      · rw [location_eq, hd, LocationDelta.fieldCount, List.cons_append, all, call_ofSlots s hopen]
        simp only [deltaFields, fileField, hname, List.cons_append, all, call_ofSlots s hfile, fail]
      · rw [ofSlots, hs₂]
        exact ⟨_, _, rfl⟩
    · cases he

theorem outcome_leaf (ctx : Context) (opts : Options) (a : Item) {s : Slots} {w : σ}
    {after : ScopeStack} (hw : ScopedWriter.Reliable w)
    (ha : (ScopedWriter.scopes w).account (.leaf a) = .ok after) :
    Outcome (token ctx opts (fun _ => fail .cyclic) (.leaf a)) s w after
      (Token.fill ctx opts (.leaf a) s) := by
  obtain ⟨slot, hvalue⟩ := Recorder.exists_of_map_snd ha
  have hplace : (ScopedWriter.scopes w).TakesValue := ⟨slot, after, hvalue⟩
  cases a with
  | scalar x => exact outcome_call hw ha
  | identity node =>
    obtain ⟨w', hc, hs, hw'⟩ := ScopedWriter.call_ok hw
      (c := .leaf (.string (s.identities.render opts.identityMode node.identity).1)) ha
    refine ⟨w', ?_, Performs.cons hc (Performs.nil w'), hs, hw'⟩
    exact call_ofSlots
      { s with identities := (s.identities.render opts.identityMode node.identity).2 } hc
  | location loc =>
    cases hv : (s.cursor.delta loc).value ctx opts.paths with
    | error e =>
      simp only [Token.fill, Item.fill, hv]
      exact location_of_unknownFile hw hvalue hv
    | ok v =>
      obtain ⟨w', hcalls, hs, hw'⟩ :=
        ScopedWriter.performs_of_accountAll hw (ScopeStack.accountAll_tokens v hvalue)
      simp only [Token.fill, Item.fill, hv]
      exact ⟨w', location_of_performs hv hcalls, hcalls, hs, hw'⟩
  | define site => exact ⟨_, rfl, hplace⟩
  | fault e => exact ⟨_, rfl, hplace⟩

/-! ### Whole trees -/

theorem outcome_token (ctx : Context) (opts : Options) (t : Token Item) {s : Slots} {w : σ}
    {after : ScopeStack} (hw : ScopedWriter.Reliable w)
    (ha : (ScopedWriter.scopes w).account t = .ok after) :
    Outcome (token ctx opts (fun _ => fail .cyclic) t) s w after (t.fill ctx opts s) := by
  cases t with
  | leaf a => exact outcome_leaf ctx opts a hw ha
  | container | variant | close | tag => exact outcome_call hw ha

theorem outcome_tokens (ctx : Context) (opts : Options) {after : ScopeStack} :
    ∀ (ts : List (Token Item)) {s : Slots} {w : σ}, ScopedWriter.Reliable w →
      (ScopedWriter.scopes w).accountAll ts = .ok after →
      Outcome (all (ts.map (token ctx opts fun _ => fail .cyclic))) s w after
        (fillTokens ctx opts ts s)
  | [], s, w, hw, ha => ⟨w, rfl, Performs.nil w, Except.ok.inj ha, hw⟩
  | t :: ts, s, w, hw, ha => by
    obtain ⟨mid, ht, hts⟩ := ScopeStack.exists_of_accountAll_cons ha
    have hrest : ∀ (s : Slots) (w : σ), ScopedWriter.Reliable w → ScopedWriter.scopes w = mid →
        Outcome (all (ts.map (token ctx opts fun _ => fail .cyclic))) s w after
          (fillTokens ctx opts ts s) := by
      intro s w hw hs
      rw [← hs] at hts
      exact outcome_tokens ctx opts ts hw hts
    have h := outcome_cons (s := s) (outcome_token ctx opts t hw ht) hrest
    rw [fillTokens]
    cases hx : t.fill ctx opts s with
    | error e =>
      rw [hx] at h
      exact h
    | ok x =>
      rw [hx] at h
      simp only [Except.bind] at h ⊢
      cases hy : fillTokens ctx opts ts x.2 <;> rw [hy] at h <;> exact h

/-- Where the scopes of a writer accept a value, a run over a tree comes to what the slots come to:
it writes the filled tree as one value, or fails as the slots do. -/
theorem run_outcome (ctx : Context) (opts : Options) (t : Tree Item) (s : Slots) {w : σ}
    {after : ScopeStack} {slot : Slot} (hw : ScopedWriter.Reliable w)
    (ha : (ScopedWriter.scopes w).value = .ok (slot, after)) :
    Outcome (run ctx opts t) s w after
      ((t.fill ctx opts s).map fun (v, s) => (v.tokens, s)) := by
  rw [← Tree.fillTokens_tokens]
  exact outcome_tokens ctx opts t.tokens hw (ScopeStack.accountAll_tokens t ha)

end Pass

end SyntaxExport
