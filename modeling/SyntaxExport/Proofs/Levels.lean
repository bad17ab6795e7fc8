import SyntaxExport.Proofs.Index
import SyntaxExport.Proofs.Layout.Tuples

/-!
# Levels in their places

The tuple of a node has the fields of its levels one after the other, so a level has the same place in
the tuples of all kinds below it, and what stands there does not depend on the levels that come after
it (`Session.levels_in_place`). A reader that knows a kind can read the fields of that kind from every
node of a kind below it.
-/

namespace SyntaxExport

/-! ### Parts of filled tuples -/

theorem Layout.itemTrees_append (ls ms : List Layout) :
    itemTrees (ls ++ ms) = itemTrees ls ++ itemTrees ms := by
  induction ls with
  | nil => rfl
  | cons l ls ih => rw [List.cons_append, itemTrees, itemTrees, ih, List.cons_append]

theorem Tree.bindItems_append {α β : Type} (f : α → Tree β) (ts us : List (Tree α)) :
    bindItems (ts ++ us) f = bindItems ts f ++ bindItems us f := by
  induction ts with
  | nil => rfl
  | cons t ts ih => rw [List.cons_append, bindItems, bindItems, ih, List.cons_append]

/-- Elements are filled part by part, in their order. -/
theorem Tree.of_fillItems_append {ctx : Context} {opts : Options} : ∀ {ts us : List (Tree Item)}
    {s s' : Slots} {vs : List Value}, fillItems ctx opts (ts ++ us) s = .ok (vs, s') →
    ∃ s₁, fillItems ctx opts ts s = .ok (vs.take ts.length, s₁)
      ∧ fillItems ctx opts us s₁ = .ok (vs.drop ts.length, s')
  | [], us, s, s', vs, h => ⟨s, rfl, h⟩
  | t :: ts, us, s, s', vs, h => by
    have hcons : fillItems ctx opts (t :: (ts ++ us)) s = .ok (vs, s') := h
    obtain ⟨v, s₁, ws, ht, hrest, rfl⟩ := of_fillItems_cons hcons
    obtain ⟨s₂, hts, hus⟩ := of_fillItems_append hrest
    refine ⟨s₂, ?_, hus⟩
    rw [fillItems, ht]
    simp only [hts]
    rfl

/-- The values of layouts one after the other, with everything that is defined inside them down to
`fuel` levels of nesting, and the slots after them. -/
def Layout.fillAll (ctx : Context) (opts : Options) (fuel : Nat) (ls : List Layout) (s : Slots) :
    Except ExportError (List Value × Slots) :=
  Tree.fillItems ctx opts (Tree.bindItems (itemTrees ls) (Item.expand (Site.tree ctx opts fuel))) s

theorem Layout.of_fillAll_append {ctx : Context} {opts : Options} {fuel : Nat} {ls ms : List Layout}
    {s s' : Slots} {vs : List Value} (h : fillAll ctx opts fuel (ls ++ ms) s = .ok (vs, s')) :
    ∃ s₁, fillAll ctx opts fuel ls s = .ok (vs.take ls.length, s₁)
      ∧ fillAll ctx opts fuel ms s₁ = .ok (vs.drop ls.length, s') := by
  rw [fillAll, itemTrees_append, Tree.bindItems_append] at h
  obtain ⟨s₁, hls, hms⟩ := Tree.of_fillItems_append h
  rw [Tree.length_bindItems, length_itemTrees] at hls hms
  exact ⟨s₁, hls, hms⟩

theorem Layout.length_of_fillAll {ctx : Context} {opts : Options} {fuel : Nat} {ls : List Layout}
    {s s' : Slots} {vs : List Value} (h : fillAll ctx opts fuel ls s = .ok (vs, s')) :
    vs.length = ls.length := by
  rw [Tree.length_of_fillItems h, Tree.length_bindItems, length_itemTrees]

/-! ### Levels -/

/-- The elements in the place of a level. -/
def NodeKind.ownElements {κ β : Type} [NodeKind κ] (level : κ) (items : List β) : List β :=
  (items.drop (offset level)).take (ownFieldCount level)

/-- The elements of a tuple are those of the levels. The elements in the place of a level are the values
of its fields, as many as it declares, filled from the slots that the levels above it leave. -/
def Levels.InPlace (ctx : Context) (opts : Options) (x : Levels) (items : List Value) : Prop :=
  items.length = NodeKind.tupleSize x.kind ∧ ∃ (fuel : Nat) (s : Slots),
    ∀ level ∈ NodeKind.lineage x.kind, ∃ s₁ s₂,
      Layout.fillAll ctx opts fuel ((NodeKind.above level).flatMap x.fields) s
        = .ok (items.take (NodeKind.offset level), s₁) ∧
      Layout.fillAll ctx opts fuel (x.fields level) s₁
        = .ok (NodeKind.ownElements level items, s₂) ∧
      (NodeKind.ownElements level items).length = NodeKind.ownFieldCount level

theorem Layout.length_flatMap_above {κ : Type} [NodeKind κ] (k : κ) {level : κ → List Layout}
    (h : ∀ l ∈ NodeKind.lineage k, (level l).length = NodeKind.ownFieldCount l) :
    ((NodeKind.above k).flatMap level).length = NodeKind.offset k := by
  have hall := length_flatMap_lineage k h
  have hown : (level k).length = NodeKind.ownFieldCount k := by
    refine h k ?_
    rw [NodeKind.lineage_eq_above]
    exact List.mem_append_right _ (List.mem_singleton.mpr rfl)
  rw [NodeKind.lineage_eq_above, List.flatMap_append, List.length_append, List.flatMap_singleton,
    hown, ← NodeKind.offset_add_ownFieldCount] at hall
  omega

/-- Every level has the number of fields that its kind declares. -/
theorem Context.Describes.length_fields {ctx : Context} {opts : Options} {n : NodeRef} {x : Levels}
    (h : ctx.Describes opts n x) :
    ∀ level ∈ NodeKind.lineage x.kind, (x.fields level).length = NodeKind.ownFieldCount level := by
  intro level hlevel
  cases h with
  | decl | noDecl => exact Layout.length_declLevel ..
  | stmt | noStmt => exact Layout.length_stmtLevel ..
  | comment | noComment => exact Layout.length_commentLevel ..
  | type => exact Layout.length_typeLevel ..
  | noType =>
    have hlineage : NodeKind.lineage TypeKind.noType = [.type, .noType] := rfl
    rw [hlineage] at hlevel
    simp only [List.mem_cons, List.not_mem_nil, or_false] at hlevel
    rcases hlevel with rfl | rfl
    · rfl
    · rfl

/-- What is filled from the fields of all levels has each level in its place. -/
theorem Levels.inPlace_of_fillAll {ctx : Context} {opts : Options} {fuel : Nat} {x : Levels}
    (hlength : ∀ level ∈ NodeKind.lineage x.kind,
      (x.fields level).length = NodeKind.ownFieldCount level)
    {s s' : Slots} {items : List Value} (h : Layout.fillAll ctx opts fuel x.all s = .ok (items, s')) :
    x.InPlace ctx opts items := by
  refine ⟨?_, fuel, s, fun level hlevel => ?_⟩
  · rw [Layout.length_of_fillAll h, all, Layout.length_flatMap_lineage x.kind hlength]
  -- the levels above come first, then the level itself, then those below it
  obtain ⟨below, hbelow⟩ := NodeKind.exists_lineage_eq_append hlevel
  rw [all, hbelow, NodeKind.lineage_eq_above, List.append_assoc, List.flatMap_append] at h
  obtain ⟨s₁, habove, h⟩ := Layout.of_fillAll_append h
  rw [List.flatMap_append, List.flatMap_singleton] at h
  obtain ⟨s₂, hown, -⟩ := Layout.of_fillAll_append h
  have hupper : ∀ l ∈ NodeKind.lineage level, (x.fields l).length = NodeKind.ownFieldCount l :=
    fun l hl => hlength l (NodeKind.mem_lineage_trans hlevel hl)
  rw [Layout.length_flatMap_above level hupper] at habove hown
  rw [hlength level hlevel] at hown
  refine ⟨s₁, s₂, habove, hown, ?_⟩
  rw [← hlength level hlevel]
  exact Layout.length_of_fillAll hown

/-! ### Documents -/

/-- Every tuple of an expanded site is that of a node of the context. -/
theorem Site.exists_describes {ctx : Context} {opts : Options} {ts : List (Tree Item)} :
    ∀ {fuel : Nat} {s : Site}, ts ∈ (s.tree ctx opts fuel).tuples → ∃ n x fuel',
      ctx.Describes opts n x ∧ Tree.pointer? ts = some (.identity n) ∧
      ts = Tree.bindItems (Layout.itemTrees x.all) (Item.expand (Site.tree ctx opts fuel'))
  | 0, _, h => by cases h
  | fuel + 1, s, h => by
    have hheaded := Site.isHeaded_tree ctx opts fuel
    rcases Tree.of_mem_tuples_bind hheaded h with ⟨ts, hts, rfl⟩ | ⟨site, hsite⟩
    · obtain ⟨n, x, hdescribes, hpointer, rfl⟩ := Layout.isTuple_layout hts
      exact ⟨n, x, fuel, hdescribes, by rw [Tree.pointer?_bindItems hheaded, hpointer], rfl⟩
    · exact exists_describes hsite

/-- Marks in their places name the nodes of their tuples. -/
theorem Mark.pointers_of_placed : ∀ {ms : List (Mark Item)}, Tree.Placed ms →
    ms.filterMap Mark.pointer? = (ms.flatMap Mark.nodes).map Item.identity
  | [], _ => rfl
  | m :: ms, h => by
    have ih := pointers_of_placed fun m' hm' => h m' (List.mem_cons_of_mem m hm')
    have hm := h m List.mem_cons_self
    rw [List.flatMap_cons, List.map_append, ← ih]
    cases m with
    | node a =>
      obtain ⟨n, rfl⟩ := hm
      rfl
    | head a =>
      obtain ⟨n, rfl⟩ := hm
      rfl
    | locations => rfl
    | slot => rfl

namespace Session

/-- A document has a tuple for every node that is written, in the order of the nodes. Every level of
the kind of the node has its place in the tuple, which is the same for all kinds below the level, and
there the tuple has the fields of that level, whatever the levels below it are. -/
theorem levels_in_place {ctx : Context} {root : DeclId} {opts : Options} {s s' : Session}
    {r : Recorder} (h : s.write ctx root opts ({} : Recorder) = (.ok (), s', r)) :
    ∃ v : Value, r.document? = some v ∧ List.Forall₂ (fun n items =>
      Tree.pointer? items = some (.string (s'.identities.text opts.identityMode n)) ∧
      ∃ x, ctx.Describes opts n x ∧ x.InPlace ctx opts items) (ctx.tuples opts root) v.tuples := by
  obtain ⟨v, hv, hfill, -⟩ := filled_of_write h
  refine ⟨v, hv, ?_⟩
  have hsite := fun ts =>
    @Site.exists_describes ctx opts ts ctx.nestingBound (.decl (some root))
  have hfilled : List.Forall₂ (Tree.FillsTuple ctx opts s'.identities)
      (Site.tree ctx opts ctx.nestingBound (.decl (some root))).tuples v.tuples :=
    Tree.filled_tuples (fun ts hts => (hsite ts hts).imp fun n ⟨_, _, _, hpointer, _⟩ => hpointer)
      hfill (.refl _)
  -- the nodes of the outline are those of the tuples of the tree
  have hplaced : Tree.Placed (Tree.outline none
      (Site.tree ctx opts ctx.nestingBound (.decl (some root)))) :=
    (Settled.outline opts ctx.nestingBound (.decl (some root))).1
  have hpointers : (Site.tree ctx opts ctx.nestingBound (.decl (some root))).tuples.map Tree.pointer?
      = (ctx.tuples opts root).map fun n => some (.identity n) := by
    rw [Tree.pointers_tuples hplaced, Mark.pointers_of_placed hplaced, List.map_map]
    rfl
  have htuples : List.Forall₂ (fun a items => ∀ n, a = some (Item.identity n) →
      Tree.pointer? items = some (.string (s'.identities.text opts.identityMode n)) ∧
      ∃ x, ctx.Describes opts n x ∧ x.InPlace ctx opts items)
      ((Site.tree ctx opts ctx.nestingBound (.decl (some root))).tuples.map Tree.pointer?)
      v.tuples := by
    rw [List.forall₂_map_left_iff]
    refine ((List.forall₂_and_left _ _).mpr ⟨hsite, hfilled⟩).imp ?_
    rintro ts items ⟨⟨n, x, fuel, hdescribes, hpointer, rfl⟩, m, slots, slots', hm, hitems, hfill⟩
    intro n' hn'
    cases hpointer.symm.trans hn'
    cases hpointer.symm.trans hm
    exact ⟨hitems, x, hdescribes, Levels.inPlace_of_fillAll hdescribes.length_fields hfill⟩
  rw [hpointers, List.forall₂_map_left_iff] at htuples
  exact htuples.imp fun n items hn => hn n rfl

/-- The function unit has its levels in their places. -/
theorem levels_in_place_functionUnit : ∃ (s' : Session) (r : Recorder) (v : Value),
    ({} : Session).write functionUnit ⟨0⟩ { identityMode := .raw } ({} : Recorder) = (.ok (), s', r) ∧
    r.document? = some v ∧ List.Forall₂ (fun n items =>
      Tree.pointer? items = some (.string (s'.identities.text .raw n)) ∧
      ∃ x, functionUnit.Describes { identityMode := .raw } n x
        ∧ x.InPlace functionUnit { identityMode := .raw } items)
      (functionUnit.tuples { identityMode := .raw } ⟨0⟩) v.tuples := by
  obtain ⟨s', r, h⟩ := exists_write_functionUnit
  obtain ⟨v, hv, htuples⟩ := levels_in_place h
  exact ⟨s', r, v, h, hv, htuples⟩

end Session

end SyntaxExport
