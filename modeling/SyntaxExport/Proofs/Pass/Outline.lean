import SyntaxExport.Proofs.Identity.Extension
import SyntaxExport.Proofs.Layout.Outline
import SyntaxExport.Proofs.Pass.Filling

/-!
# Outlines of written documents

The outline of a finished document is the outline of the tree it was filled from, with the texts of
its pointers and with relative locations in the place of locations (`Tree.filled_of_fill`). The text
of a pointer is the one that the last table has for it.
-/

namespace SyntaxExport

/-! ### Sites -/

theorem Tree.IsHeaded.bind_expand {t : Tree Item} (h : t.IsHeaded) (define : Site → Tree Item) :
    (t.bind (Item.expand define)).IsHeaded := by
  cases h with
  | fault e => exact .fault e
  | node => exact .node _ _ _ _

namespace Site

variable (ctx : Context) (opts : Options)

theorem isHeaded_layout (s : Site) : (s.layout ctx opts).tree.IsHeaded := by
  unfold layout
  split
  · exact Layout.isHeaded_node (Layout.beginsWith_decl ..)
  · split
    · exact .fault _
    · exact Layout.isHeaded_node (Layout.beginsWith_decl ..)
  · exact Layout.isHeaded_node (Layout.beginsWith_stmt ..)
  · split
    · exact .fault _
    · exact Layout.isHeaded_node (Layout.beginsWith_stmt ..)
  · exact Layout.isHeaded_node (Layout.beginsWith_comment ..)
  · split
    · exact .fault _
    · exact Layout.isHeaded_node (Layout.beginsWith_comment ..)

theorem isHeaded_tree : ∀ (fuel : Nat) (s : Site), (s.tree ctx opts fuel).IsHeaded
  | 0, _ => .fault _
  | _ + 1, s => (s.isHeaded_layout ctx opts).bind_expand _

/-- The outline of a site with everything that is defined inside it. -/
def outline (fuel : Nat) (s : Site) : List (Mark Item) :=
  (s.tree ctx opts fuel).outline none

theorem outline_succ (fuel : Nat) (s : Site) : s.outline ctx opts (fuel + 1)
    = (Layout.outline none (s.layout ctx opts)).flatMap (Mark.expand (tree ctx opts fuel)) :=
  Tree.outline_bind (isHeaded_tree ctx opts fuel) _ none

end Site

/-- The text that a table has for the identity of a node. -/
def IdentityTable.text (t : IdentityTable) (mode : IdentityMode) (n : NodeRef) : String :=
  (t.render mode n.identity).1

/-! ### Marks in their places -/

/-- A pointer is an identity, and a field with locations holds locations under such a pointer. -/
def Mark.IsPlaced : Mark Item → Prop
  | .node a | .head a => ∃ n, a = .identity n
  | .locations owner _ parts =>
    (∃ n, owner = some (.identity n)) ∧ ∀ p ∈ parts, ∃ loc, p = .leaf (.location loc)
  | .slot a => ∃ s, a = .define s

/-! ### Filled marks -/

section Filled

variable (ctx : Context) (paths : PathRule) (text : NodeRef → String)

/-- Locations become relative to each other. -/
inductive FilledParts : List (Tree Item) → LocationCursor → List Value → LocationCursor → Prop where
  | nil (c : LocationCursor) : FilledParts [] c [] c
  | cons {loc : Option SourceLocation} {ps : List (Tree Item)} {vs : List Value} {v : Value}
    {c c' : LocationCursor} : (c.delta loc).value ctx paths = .ok v →
    FilledParts ps (c.advance loc) vs c' → FilledParts (.leaf (.location loc) :: ps) c (v :: vs) c'

/-- Marks of a tree and of its document, with the cursors before and after them. -/
inductive Filled :
    List (Mark Item) → LocationCursor → List (Mark Scalar) → LocationCursor → Prop where
  | nil (c : LocationCursor) : Filled [] c [] c
  | node (n : NodeRef) {ms : List (Mark Item)} {ns : List (Mark Scalar)} {c c' : LocationCursor} :
    Filled ms c ns c' →
    Filled (.node (.identity n) :: ms) c (.node (.string (text n)) :: ns) c'
  | head (n : NodeRef) {ms : List (Mark Item)} {ns : List (Mark Scalar)} {c c' : LocationCursor} :
    Filled ms c ns c' →
    Filled (.head (.identity n) :: ms) c (.head (.string (text n)) :: ns) c'
  | locations (n : NodeRef) (field : String) {ps : List (Tree Item)} {vs : List Value}
    {ms : List (Mark Item)} {ns : List (Mark Scalar)} {c c₁ c' : LocationCursor} :
    FilledParts ctx paths ps c vs c₁ → Filled ms c₁ ns c' →
    Filled (.locations (some (.identity n)) field ps :: ms) c
      (.locations (some (.string (text n))) field vs :: ns) c'

variable {ctx : Context} {paths : PathRule} {text : NodeRef → String}

theorem Filled.append {ms ms' : List (Mark Item)} {ns ns' : List (Mark Scalar)}
    {c c₁ c' : LocationCursor} (h : Filled ctx paths text ms c ns c₁)
    (h' : Filled ctx paths text ms' c₁ ns' c') :
    Filled ctx paths text (ms ++ ms') c (ns ++ ns') c' := by
  induction h with
  | nil => exact h'
  | node n _ ih => exact .node n (ih h')
  | head n _ ih => exact .head n (ih h')
  | locations n field hparts _ ih => exact .locations n field hparts (ih h')

end Filled

/-! ### Filling -/

namespace Tree

variable {ctx : Context} {opts : Options} {last : IdentityTable}

/-- A relative location is an object that no pointer leads. -/
theorem exists_object_of_value {d : LocationDelta} {paths : PathRule} {v : Value}
    (h : d.value ctx paths = .ok v) : ∃ fs, v = .object fs ∧ leading? fs = none
      ∧ ∀ owner, v.outline owner = [] := by
  cases d with
  | absent => cases h; exact ⟨_, rfl, rfl, fun _ => rfl⟩
  | column c => cases h; exact ⟨_, rfl, rfl, fun _ => rfl⟩
  | line l c => cases h; exact ⟨_, rfl, rfl, fun _ => rfl⟩
  | file f l c =>
    rw [LocationDelta.value] at h
    split at h
    · cases h
    · cases h; exact ⟨_, rfl, rfl, fun _ => rfl⟩

theorem extends_of_fill_leaf {a : Item} {s s' : Slots} {v : Value}
    (h : a.fill ctx opts s = .ok (v, s')) : s.identities.Extends s'.identities := by
  cases a with
  | scalar x => cases h; exact .refl _
  | identity n => cases h; exact IdentityTable.extends_render _ _ _
  | location loc =>
    rw [Item.fill] at h
    split at h
    · cases h
    · cases h; exact .refl _
  | define | fault => cases h

mutual

/-- Filling a tree changes no number that was given before. -/
theorem extends_of_fill : ∀ {t : Tree Item} {s s' : Slots} {v : Value},
    t.fill ctx opts s = .ok (v, s') → s.identities.Extends s'.identities
  | .leaf _, _, _, _, h => extends_of_fill_leaf h
  | .object fs, s, s', v, h => by
    obtain ⟨gs, hfs, -⟩ := of_fill_object h
    exact extends_of_fillFields hfs
  | .array ts, s, s', v, h => by
    obtain ⟨vs, hts, -⟩ := of_fill_array h
    exact extends_of_fillItems hts
  | .tuple ts, s, s', v, h => by
    obtain ⟨vs, hts, -⟩ := of_fill_tuple h
    exact extends_of_fillItems hts
  | .variant tag t, s, s', v, h => by
    obtain ⟨u, ht, -⟩ := of_fill_variant h
    exact extends_of_fill ht

theorem extends_of_fillFields : ∀ {fs : List (String × Tree Item)} {s s' : Slots}
    {gs : List (String × Value)}, fillFields ctx opts fs s = .ok (gs, s') →
    s.identities.Extends s'.identities
  | [], _, _, _, h => by
    cases h
    exact .refl _
  | (name, t) :: fs, s, s', gs, h => by
    obtain ⟨v, s₁, hs, ht, hfs, -⟩ := of_fillFields_cons h
    exact (extends_of_fill ht).trans (extends_of_fillFields hfs)

theorem extends_of_fillItems : ∀ {ts : List (Tree Item)} {s s' : Slots} {vs : List Value},
    fillItems ctx opts ts s = .ok (vs, s') → s.identities.Extends s'.identities
  | [], _, _, _, h => by
    cases h
    exact .refl _
  | t :: ts, s, s', vs, h => by
    obtain ⟨v, s₁, us, ht, hts, -⟩ := of_fillItems_cons h
    exact (extends_of_fill ht).trans (extends_of_fillItems hts)

end

/-! ### Pointers of filled trees -/

/-- A pointer has the text of its node, and there is a pointer in the document only where the tree
has one. -/
def Mirrors (text : NodeRef → String) (a : Option Item) (x : Option Scalar) : Prop :=
  (∀ n, a = some (.identity n) → x = some (.string (text n))) ∧ (a = none → x = none)

theorem Mirrors.or {text : NodeRef → String} {a b : Option Item} {x y : Option Scalar}
    (h : Mirrors text a x) (h' : Mirrors text b y) : Mirrors text (a.or b) (x.or y) := by
  cases a with
  | none =>
    rw [h.2 rfl]
    exact h'
  | some a =>
    refine ⟨fun n hn => ?_, nofun⟩
    rw [h.1 n hn, Option.some_or]

theorem mirrors_none (text : NodeRef → String) : Mirrors text none none :=
  ⟨nofun, fun _ => rfl⟩

/-- What fills a leaf begins an object with a pointer where the leaf does. -/
theorem mirrors_leaf {a : Item} {s s' : Slots} {v : Value} (h : a.fill ctx opts s = .ok (v, s'))
    (hlast : s'.identities.Extends last) (name : String) (fs : List (String × Tree Item))
    (gs : List (String × Value)) : Mirrors (last.text opts.identityMode)
      (leading? ((name, .leaf a) :: fs)) (leading? ((name, v) :: gs)) := by
  cases a with
  | scalar x =>
    cases h
    rw [leading?, leading?]
    refine ⟨fun n hn => ?_, fun hnone => ?_⟩
    · split at hn <;> cases hn
    · split at hnone
      · cases hnone
      · next hname =>
        cases x with
        | string => exact if_neg hname
        | integer | unsigned | boolean | simple => exact if_neg (by simp [Legible.isPointer])
  | identity n =>
    cases h
    rw [leading?, leading?]
    by_cases hname : name = "pointer"
    · rw [if_pos ⟨hname, rfl⟩, if_pos ⟨hname, rfl⟩, ← IdentityTable.render_of_extends hlast]
      refine ⟨?_, nofun⟩
      rintro m ⟨⟩
      rfl
    · rw [if_neg fun hp => hname hp.1, if_neg fun hp => hname hp.1]
      exact mirrors_none _
  | location loc =>
    rw [Item.fill] at h
    split at h
    · cases h
    · next hv =>
      cases h
      obtain ⟨fields, rfl, -, -⟩ := exists_object_of_value hv
      rw [leading?, if_neg (by simp [Legible.isPointer])]
      exact mirrors_none _
  | define | fault => cases h

theorem mirrors_leading? : ∀ {fs : List (String × Tree Item)} {s s' : Slots}
    {gs : List (String × Value)}, fillFields ctx opts fs s = .ok (gs, s') →
    s'.identities.Extends last → Mirrors (last.text opts.identityMode) (leading? fs) (leading? gs)
  | [], _, _, _, h, _ => by
    cases h
    exact mirrors_none _
  | (name, t) :: fs, s, s', gs, h, hlast => by
    obtain ⟨v, s₁, hs, ht, hfs, rfl⟩ := of_fillFields_cons h
    cases t with
    | leaf a => exact mirrors_leaf ht ((extends_of_fillFields hfs).trans hlast) name fs hs
    | object =>
      obtain ⟨gs, -, rfl⟩ := of_fill_object ht
      exact mirrors_none _
    | array =>
      obtain ⟨vs, -, rfl⟩ := of_fill_array ht
      exact mirrors_none _
    | tuple =>
      obtain ⟨vs, -, rfl⟩ := of_fill_tuple ht
      exact mirrors_none _
    | variant =>
      obtain ⟨u, -, rfl⟩ := of_fill_variant ht
      exact mirrors_none _

theorem mirrors_pointer? : ∀ {ts : List (Tree Item)} {s s' : Slots} {vs : List Value},
    fillItems ctx opts ts s = .ok (vs, s') → s'.identities.Extends last →
    Mirrors (last.text opts.identityMode) (pointer? ts) (pointer? vs)
  | [], _, _, _, h, _ => by
    cases h
    exact mirrors_none _
  | t :: ts, s, s', vs, h, hlast => by
    obtain ⟨v, s₁, us, ht, hts, rfl⟩ := of_fillItems_cons h
    cases t with
    | object fs =>
      obtain ⟨gs, hfs, rfl⟩ := of_fill_object ht
      exact mirrors_leading? hfs ((extends_of_fillItems hts).trans hlast)
    | leaf a =>
      cases a with
      | scalar | identity => cases ht; exact mirrors_none _
      | location loc =>
        rw [fill, Item.fill] at ht
        split at ht
        · cases ht
        · next hv =>
          cases ht
          obtain ⟨fields, rfl, hnone, -⟩ := exists_object_of_value hv
          change Mirrors _ none (leading? fields)
          rw [hnone]
          exact mirrors_none _
      | define | fault => cases ht
    | array =>
      obtain ⟨vs, -, rfl⟩ := of_fill_array ht
      exact mirrors_none _
    | tuple =>
      obtain ⟨vs, -, rfl⟩ := of_fill_tuple ht
      exact mirrors_none _
    | variant =>
      obtain ⟨u, -, rfl⟩ := of_fill_variant ht
      exact mirrors_none _

/-! ### Outlines of filled trees -/

/-- A tree whose locations and pointers are in their places. -/
def Placed (ms : List (Mark Item)) : Prop :=
  ∀ m ∈ ms, m.IsPlaced

theorem placed_append {ms ms' : List (Mark Item)} (h : Placed (ms ++ ms')) :
    Placed ms ∧ Placed ms' :=
  ⟨fun m hm => h m (List.mem_append_left _ hm), fun m hm => h m (List.mem_append_right _ hm)⟩

/-- Locations define nothing. -/
theorem notMem_locations {s : Site} {t : Tree Item} {rest : List (Token Item)}
    (hparts : ∀ p ∈ t.parts, ∃ loc, p = .leaf (.location loc))
    (h : .leaf (.define s) ∈ t.tokensAppend rest) : .leaf (.define s) ∈ rest := by
  have hitems : ∀ {ts : List (Tree Item)} {rest : List (Token Item)},
      (∀ p ∈ ts, ∃ loc, p = .leaf (.location loc)) → .leaf (.define s) ∈ itemTokens ts rest →
      .leaf (.define s) ∈ rest := by
    intro ts
    induction ts with
    | nil => exact fun _ h => h
    | cons t ts ih =>
      intro rest hts h
      obtain ⟨loc, rfl⟩ := hts _ List.mem_cons_self
      exact ih (fun p hp => hts p (List.mem_cons_of_mem _ hp)) ((List.mem_cons.mp h).resolve_left nofun)
  cases t with
  | tuple ts =>
    have hrest := hitems hparts ((List.mem_cons.mp h).resolve_left nofun)
    exact (List.mem_cons.mp hrest).resolve_left nofun
  | leaf a =>
    obtain ⟨loc, hloc⟩ := hparts _ (List.mem_singleton.mpr rfl)
    cases hloc
    exact (List.mem_cons.mp h).resolve_left nofun
  | object | array | variant =>
    obtain ⟨loc, hloc⟩ := hparts _ (List.mem_singleton.mpr rfl)
    cases hloc

mutual

/-- Every place where a node is defined is in the outline, as fields with locations have none. -/
theorem slot_of_define {s : Site} : ∀ {t : Tree Item} {owner : Option Item}
    {rest : List (Token Item)}, Placed (t.outline owner) →
    .leaf (.define s) ∈ t.tokensAppend rest →
    Mark.define s ∈ t.outline owner ∨ .leaf (.define s) ∈ rest
  | .leaf a, _, _, _, h => by
    rcases List.mem_cons.mp h with ha | hrest
    · cases ha
      exact .inl List.mem_cons_self
    · exact .inr hrest
  | .object fs, owner, rest, hplaced, h => by
    have hfields := (List.mem_cons.mp h).resolve_left nofun
    rcases slot_of_define_fields (placed_append hplaced).2 hfields with hslot | hrest
    · exact .inl (List.mem_append_right _ hslot)
    · exact .inr ((List.mem_cons.mp hrest).resolve_left nofun)
  | .array ts, owner, rest, hplaced, h => by
    have hitems := (List.mem_cons.mp h).resolve_left nofun
    rcases slot_of_define_items hplaced hitems with hslot | hrest
    · exact .inl hslot
    · exact .inr ((List.mem_cons.mp hrest).resolve_left nofun)
  | .tuple ts, owner, rest, hplaced, h => by
    have hitems := (List.mem_cons.mp h).resolve_left nofun
    rcases slot_of_define_items (placed_append hplaced).2 hitems with hslot | hrest
    · exact .inl (List.mem_append_right _ hslot)
    · exact .inr ((List.mem_cons.mp hrest).resolve_left nofun)
  | .variant tag t, owner, rest, hplaced, h => by
    have hargument := (List.mem_cons.mp h).resolve_left nofun
    have hinner : Placed (t.outline owner) := hplaced
    rcases slot_of_define hinner hargument with hslot | hrest
    · exact .inl hslot
    · exact .inr ((List.mem_cons.mp hrest).resolve_left nofun)

theorem slot_of_define_fields {s : Site} : ∀ {fs : List (String × Tree Item)} {owner : Option Item}
    {rest : List (Token Item)}, Placed (outlineFields owner fs) →
    .leaf (.define s) ∈ fieldTokens fs rest →
    Mark.define s ∈ outlineFields owner fs ∨ .leaf (.define s) ∈ rest
  | [], _, _, _, h => .inr h
  | (name, t) :: fs, owner, rest, hplaced, h => by
    have hfield := (List.mem_cons.mp h).resolve_left nofun
    rw [outlineFields] at hplaced ⊢
    obtain ⟨hfirst, hfs⟩ := placed_append hplaced
    have hslot : Mark.define s ∈ (if name ∈ locationFields then [.locations owner name t.parts]
        else t.outline owner) ∨ .leaf (.define s) ∈ fieldTokens fs rest := by
      split at hfirst
      · obtain ⟨-, hparts⟩ := hfirst _ (List.mem_singleton.mpr rfl)
        exact .inr (notMem_locations hparts hfield)
      · next hname =>
        rw [if_neg hname]
        exact slot_of_define hfirst hfield
    rcases hslot with hslot | hrest
    · exact .inl (List.mem_append_left _ hslot)
    · rcases slot_of_define_fields hfs hrest with hslot | hrest
      · exact .inl (List.mem_append_right _ hslot)
      · exact .inr hrest

theorem slot_of_define_items {s : Site} : ∀ {ts : List (Tree Item)} {owner : Option Item}
    {rest : List (Token Item)}, Placed (outlineItems owner ts) →
    .leaf (.define s) ∈ itemTokens ts rest →
    Mark.define s ∈ outlineItems owner ts ∨ .leaf (.define s) ∈ rest
  | [], _, _, _, h => .inr h
  | t :: ts, owner, rest, hplaced, h => by
    obtain ⟨hfirst, hts⟩ := placed_append hplaced
    rcases slot_of_define hfirst h with hslot | hrest
    · exact .inl (List.mem_append_left _ hslot)
    · rcases slot_of_define_items hts hrest with hslot | hrest
      · exact .inl (List.mem_append_right _ hslot)
      · exact .inr hrest

end

mutual

/-- What is a place of a definition in the outline is one in the tree. -/
theorem define_of_slot {s : Site} : ∀ {t : Tree Item} {owner : Option Item} (rest : List (Token Item)),
    Mark.define s ∈ t.outline owner → .leaf (.define s) ∈ t.tokensAppend rest
  | .leaf a, _, _, h => by
    cases a with
    | define u =>
      cases List.mem_singleton.mp h
      exact List.mem_cons_self
    | location => cases List.mem_singleton.mp h
    | scalar | identity | fault => cases h
  | .object fs, _, _, h => by
    rcases List.mem_append.mp h with hhead | hfields
    · obtain ⟨a, -, ha⟩ := List.mem_map.mp hhead
      cases ha
    · exact List.mem_cons_of_mem _ (define_of_slot_fields _ hfields)
  | .array ts, _, _, h => List.mem_cons_of_mem _ (define_of_slot_items _ h)
  | .tuple ts, _, _, h => by
    rcases List.mem_append.mp h with hnode | hitems
    · obtain ⟨a, -, ha⟩ := List.mem_map.mp hnode
      cases ha
    · exact List.mem_cons_of_mem _ (define_of_slot_items _ hitems)
  | .variant _ t, owner, _, h => by
    have hinner : Mark.define s ∈ t.outline owner := h
    exact List.mem_cons_of_mem _ (define_of_slot _ hinner)

theorem define_of_slot_fields {s : Site} : ∀ {fs : List (String × Tree Item)} {owner : Option Item}
    (rest : List (Token Item)), Mark.define s ∈ outlineFields owner fs →
    .leaf (.define s) ∈ fieldTokens fs rest
  | [], _, _, h => nomatch h
  | (name, t) :: fs, _, rest, h => by
    refine List.mem_cons_of_mem _ ?_
    rw [outlineFields] at h
    rcases List.mem_append.mp h with hfirst | hfs
    · split at hfirst
      · cases List.mem_singleton.mp hfirst
      · exact define_of_slot _ hfirst
    · rw [tokensAppend_eq_append]
      exact List.mem_append_right _ (define_of_slot_fields rest hfs)

theorem define_of_slot_items {s : Site} : ∀ {ts : List (Tree Item)} {owner : Option Item}
    (rest : List (Token Item)), Mark.define s ∈ outlineItems owner ts →
    .leaf (.define s) ∈ itemTokens ts rest
  | [], _, _, h => nomatch h
  | t :: ts, _, rest, h => by
    rcases List.mem_append.mp h with hfirst | hts
    · exact define_of_slot _ hfirst
    · rw [itemTokens, tokensAppend_eq_append]
      exact List.mem_append_right _ (define_of_slot_items rest hts)

end

/-- A pointer that is an identity has a text in the document. -/
theorem eq_of_mirrors {text : NodeRef → String} {a : Option Item} {x : Option Scalar}
    (h : Mirrors text a x) (ha : ∀ b ∈ a, ∃ n, b = .identity n) :
    (a = none ∧ x = none) ∨ ∃ n, a = some (.identity n) ∧ x = some (.string (text n)) := by
  cases a with
  | none => exact .inl ⟨rfl, h.2 rfl⟩
  | some a =>
    obtain ⟨n, rfl⟩ := ha a rfl
    exact .inr ⟨n, rfl, h.1 n rfl⟩

theorem fill_location {loc : Option SourceLocation} {s s' : Slots} {v : Value}
    (h : (Item.location loc).fill ctx opts s = .ok (v, s')) :
    (s.cursor.delta loc).value ctx opts.paths = .ok v
      ∧ s' = { s with cursor := s.cursor.advance loc } := by
  rw [Item.fill] at h
  split at h
  · cases h
  · next hv => cases h; exact ⟨hv, rfl⟩

theorem filledParts_items : ∀ {ts : List (Tree Item)} {s s' : Slots} {vs : List Value},
    (∀ t ∈ ts, ∃ loc, t = .leaf (.location loc)) → fillItems ctx opts ts s = .ok (vs, s') →
    FilledParts ctx opts.paths ts s.cursor vs s'.cursor
  | [], s, s', vs, _, h => by
    cases h
    exact .nil _
  | t :: ts, s, s', vs, hts, h => by
    obtain ⟨v, s₁, us, ht, hrest, rfl⟩ := of_fillItems_cons h
    obtain ⟨loc, rfl⟩ := hts t List.mem_cons_self
    obtain ⟨hv, rfl⟩ := fill_location ht
    exact .cons hv (filledParts_items (fun t ht => hts t (List.mem_cons_of_mem _ ht)) hrest)

/-- The parts of a field with locations are filled one after the other. -/
theorem filledParts {t : Tree Item} {s s' : Slots} {v : Value}
    (hparts : ∀ p ∈ t.parts, ∃ loc, p = .leaf (.location loc)) (h : t.fill ctx opts s = .ok (v, s')) :
    FilledParts ctx opts.paths t.parts s.cursor v.parts s'.cursor := by
  cases t with
  | tuple ts =>
    obtain ⟨vs, hts, rfl⟩ := of_fill_tuple h
    exact filledParts_items hparts hts
  | leaf | object | array | variant =>
    obtain ⟨loc, hloc⟩ := hparts _ (List.mem_singleton.mpr rfl)
    cases hloc
    all_goals
      obtain ⟨hv, rfl⟩ := fill_location h
      obtain ⟨fields, rfl, -, -⟩ := exists_object_of_value hv
      exact .cons hv (.nil _)

mutual

/-- The outline of a document is the filled outline of its tree. -/
theorem filled_of_fill : ∀ {t : Tree Item} {s s' : Slots} {v : Value} {owner : Option Item}
    {owner' : Option Scalar}, Placed (t.outline owner) → t.fill ctx opts s = .ok (v, s') →
    s'.identities.Extends last → Mirrors (last.text opts.identityMode) owner owner' →
    Filled ctx opts.paths (last.text opts.identityMode) (t.outline owner) s.cursor
      (v.outline owner') s'.cursor
  | .leaf a, s, s', v, owner, owner', hplaced, h, hlast, howner => by
    cases a with
    | scalar x => cases h; exact .nil _
    | identity n => cases h; exact .nil _
    | location loc =>
      obtain ⟨site, hsite⟩ := hplaced (.slot (.location loc)) (List.mem_singleton.mpr rfl)
      cases hsite
    | define | fault => cases h
  | .object fs, s, s', v, owner, owner', hplaced, h, hlast, howner => by
    obtain ⟨gs, hfs, rfl⟩ := of_fill_object h
    have hleading := mirrors_leading? hfs hlast
    obtain ⟨hhead, hrest⟩ := placed_append hplaced
    refine Filled.append ?_ (filled_of_fillFields hrest hfs hlast (hleading.or howner))
    have hidentity : ∀ a ∈ leading? fs, ∃ n, a = .identity n := fun a ha =>
      hhead (.head a) (List.mem_map_of_mem (Option.mem_toList.mpr ha))
    rcases eq_of_mirrors hleading hidentity with ⟨hfs, hgs⟩ | ⟨n, hfs, hgs⟩
    · rw [hfs, hgs]
      exact .nil _
    · rw [hfs, hgs]
      exact .head n (.nil _)
  | .array ts, s, s', v, owner, owner', hplaced, h, hlast, howner => by
    obtain ⟨vs, hts, rfl⟩ := of_fill_array h
    exact filled_of_fillItems hplaced hts hlast howner
  | .tuple ts, s, s', v, owner, owner', hplaced, h, hlast, howner => by
    obtain ⟨vs, hts, rfl⟩ := of_fill_tuple h
    have hpointer := mirrors_pointer? hts hlast
    obtain ⟨hnode, hrest⟩ := placed_append hplaced
    refine Filled.append ?_ (filled_of_fillItems hrest hts hlast (hpointer.or howner))
    have hidentity : ∀ a ∈ pointer? ts, ∃ n, a = .identity n := fun a ha =>
      hnode (.node a) (List.mem_map_of_mem (Option.mem_toList.mpr ha))
    rcases eq_of_mirrors hpointer hidentity with ⟨hts, hvs⟩ | ⟨n, hts, hvs⟩
    · rw [hts, hvs]
      exact .nil _
    · rw [hts, hvs]
      exact .node n (.nil _)
  | .variant tag t, s, s', v, owner, owner', hplaced, h, hlast, howner => by
    obtain ⟨u, ht, rfl⟩ := of_fill_variant h
    have hargument : Placed (t.outline owner) := hplaced
    have hfilled := filled_of_fill hargument ht hlast howner
    exact hfilled

theorem filled_of_fillFields : ∀ {fs : List (String × Tree Item)} {s s' : Slots}
    {gs : List (String × Value)} {owner : Option Item} {owner' : Option Scalar},
    Placed (outlineFields owner fs) → fillFields ctx opts fs s = .ok (gs, s') →
    s'.identities.Extends last → Mirrors (last.text opts.identityMode) owner owner' →
    Filled ctx opts.paths (last.text opts.identityMode) (outlineFields owner fs) s.cursor
      (outlineFields owner' gs) s'.cursor
  | [], s, s', gs, owner, owner', _, h, _, _ => by
    cases h
    exact .nil _
  | (name, t) :: fs, s, s', gs, owner, owner', hplaced, h, hlast, howner => by
    obtain ⟨v, s₁, hs, ht, hfs, rfl⟩ := of_fillFields_cons h
    rw [outlineFields] at hplaced ⊢
    rw [outlineFields]
    obtain ⟨hfirst, hrest⟩ := placed_append hplaced
    have hlast₁ := (extends_of_fillFields hfs).trans hlast
    refine Filled.append ?_ (filled_of_fillFields hrest hfs hlast howner)
    split at hfirst
    · next hname =>
      rw [if_pos hname, if_pos hname]
      obtain ⟨⟨n, rfl⟩, hparts⟩ := hfirst _ (List.mem_singleton.mpr rfl)
      rw [howner.1 n rfl]
      exact .locations n name (filledParts hparts ht) (.nil _)
    · next hname =>
      rw [if_neg hname, if_neg hname]
      exact filled_of_fill hfirst ht hlast₁ howner

theorem filled_of_fillItems : ∀ {ts : List (Tree Item)} {s s' : Slots} {vs : List Value}
    {owner : Option Item} {owner' : Option Scalar}, Placed (outlineItems owner ts) →
    fillItems ctx opts ts s = .ok (vs, s') → s'.identities.Extends last →
    Mirrors (last.text opts.identityMode) owner owner' →
    Filled ctx opts.paths (last.text opts.identityMode) (outlineItems owner ts) s.cursor
      (outlineItems owner' vs) s'.cursor
  | [], s, s', vs, owner, owner', _, h, _, _ => by
    cases h
    exact .nil _
  | t :: ts, s, s', vs, owner, owner', hplaced, h, hlast, howner => by
    obtain ⟨v, s₁, us, ht, hts, rfl⟩ := of_fillItems_cons h
    obtain ⟨hfirst, hrest⟩ := placed_append hplaced
    have hlast₁ := (extends_of_fillItems hts).trans hlast
    exact (filled_of_fill hfirst ht hlast₁ howner).append
      (filled_of_fillItems hrest hts hlast howner)

end

end Tree

end SyntaxExport
