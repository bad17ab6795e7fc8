import SyntaxExport.Proofs.Layout.Inside
import SyntaxExport.Proofs.Pass.Outline
import SyntaxExport.Proofs.Walk

/-!
# Nodes of documents and walks

The nodes whose marks stand in the outline of a site are among those that a walk of the site visits,
in the same order (`written_sublist`). They are all of them where the site can be filled, the filter
keeps every child, and every payload with definitions is read (`written_eq`).

The walk is followed with the nesting of definitions: a step of the walk is a level of the tree.
-/

namespace SyntaxExport

open Relation (ReflTransGen)

/-! ### Parts of filled trees -/

namespace Tree

variable (ctx : Context) (opts : Options)

/-- A tree without a fault, from some state of the slots. -/
def Fills (t : Tree Item) : Prop :=
  ∃ s s' v, t.fill ctx opts s = .ok (v, s')

variable {ctx : Context} {opts : Options} {define : Site → Tree Item} {site : Site}

mutual

/-- What is defined inside a tree that can be filled can be filled. -/
theorem fills_of_slot : ∀ {t : Tree Item} {owner : Option Item} {s s' : Slots} {v : Value},
    (t.bind (Item.expand define)).fill ctx opts s = .ok (v, s') →
    .define site ∈ t.outline owner → (define site).Fills ctx opts
  | .leaf a, owner, s, s', v, h, hslot => by
    cases a with
    | define site' =>
      cases List.mem_singleton.mp hslot
      exact ⟨s, s', v, h⟩
    | location loc => cases List.mem_singleton.mp hslot
    | scalar | identity | fault => cases hslot
  | .object fs, owner, s, s', v, h, hslot => by
    obtain ⟨gs, hfs, -⟩ := of_fill_object h
    rcases List.mem_append.mp hslot with hhead | hrest
    · obtain ⟨a, -, ha⟩ := List.mem_map.mp hhead
      cases ha
    · exact fills_of_slot_fields hfs hrest
  | .array ts, owner, s, s', v, h, hslot => by
    obtain ⟨vs, hts, -⟩ := of_fill_array h
    exact fills_of_slot_items hts hslot
  | .tuple ts, owner, s, s', v, h, hslot => by
    obtain ⟨vs, hts, -⟩ := of_fill_tuple h
    rcases List.mem_append.mp hslot with hnode | hrest
    · obtain ⟨a, -, ha⟩ := List.mem_map.mp hnode
      cases ha
    · exact fills_of_slot_items hts hrest
  | .variant tag t, owner, s, s', v, h, hslot => by
    obtain ⟨u, ht, -⟩ := of_fill_variant h
    have hargument : .define site ∈ t.outline owner := hslot
    exact fills_of_slot ht hargument

theorem fills_of_slot_fields : ∀ {fs : List (String × Tree Item)} {owner : Option Item}
    {s s' : Slots} {gs : List (String × Value)},
    fillFields ctx opts (bindFields fs (Item.expand define)) s = .ok (gs, s') →
    .define site ∈ outlineFields owner fs → (define site).Fills ctx opts
  | [], _, _, _, _, _, hslot => nomatch hslot
  | (name, t) :: fs, owner, s, s', gs, h, hslot => by
    obtain ⟨v, s₁, hs, ht, hfs, -⟩ := of_fillFields_cons h
    rw [outlineFields] at hslot
    rcases List.mem_append.mp hslot with hfirst | hrest
    · split at hfirst
      · cases List.mem_singleton.mp hfirst
      · exact fills_of_slot ht hfirst
    · exact fills_of_slot_fields hfs hrest

theorem fills_of_slot_items : ∀ {ts : List (Tree Item)} {owner : Option Item}
    {s s' : Slots} {vs : List Value},
    fillItems ctx opts (bindItems ts (Item.expand define)) s = .ok (vs, s') →
    .define site ∈ outlineItems owner ts → (define site).Fills ctx opts
  | [], _, _, _, _, _, hslot => nomatch hslot
  | t :: ts, owner, s, s', vs, h, hslot => by
    obtain ⟨v, s₁, us, ht, hts, -⟩ := of_fillItems_cons h
    rcases List.mem_append.mp hslot with hfirst | hrest
    · exact fills_of_slot ht hfirst
    · exact fills_of_slot_items hts hrest

end

/-- Every element of a container that can be filled can be filled. -/
theorem fills_of_mem : ∀ {ts : List (Tree Item)} {s s' : Slots} {vs : List Value},
    fillItems ctx opts ts s = .ok (vs, s') → ∀ t ∈ ts, t.Fills ctx opts
  | [], _, _, _, _, _, ht => nomatch ht
  | t :: ts, s, s', vs, h, u, hu => by
    obtain ⟨v, s₁, us, ht, hts, -⟩ := of_fillItems_cons h
    rcases List.mem_cons.mp hu with rfl | hu
    · exact ⟨s, s₁, v, ht⟩
    · exact fills_of_mem hts u hu

theorem mem_bindItems {f : Item → Tree Item} : ∀ {ts : List (Tree Item)} {t : Tree Item}, t ∈ ts →
    t.bind f ∈ bindItems ts f
  | _ :: ts, t, h => by
    rw [bindItems]
    rcases List.mem_cons.mp h with rfl | h
    · exact List.mem_cons_self
    · exact List.mem_cons_of_mem _ (mem_bindItems h)

end Tree

namespace Layout

variable {ctx : Context} {opts : Options} {define : Site → Tree Item}

theorem mem_itemTrees : ∀ {ls : List Layout} {l : Layout}, l ∈ ls → l.tree ∈ itemTrees ls
  | _ :: ls, l, h => by
    rw [itemTrees]
    rcases List.mem_cons.mp h with rfl | h
    · exact List.mem_cons_self
    · exact List.mem_cons_of_mem _ (mem_itemTrees h)

/-- A node that can be filled has a concrete kind, and what its levels write can be filled. -/
theorem fills_of_node {κ : Type} [NodeKind κ] {k : κ} {level : κ → List Layout}
    (h : ((node k level).tree.bind (Item.expand define)).Fills ctx opts) :
    NodeKind.isAbstract k = false ∧ ∀ a ∈ NodeKind.lineage k, ∀ l ∈ level a,
      (l.tree.bind (Item.expand define)).Fills ctx opts := by
  obtain ⟨s, s', v, hfill⟩ := h
  unfold node at hfill
  cases hkind : NodeKind.isAbstract k with
  | true =>
    rw [hkind] at hfill
    cases hfill
  | false =>
    rw [hkind, if_neg Bool.false_ne_true] at hfill
    obtain ⟨u, htuple, -⟩ := Tree.of_fill_variant hfill
    obtain ⟨vs, hitems, -⟩ := Tree.of_fill_tuple htuple
    refine ⟨rfl, fun a ha l hl => ?_⟩
    exact Tree.fills_of_mem hitems _
      (Tree.mem_bindItems (mem_itemTrees (List.mem_flatMap.mpr ⟨a, ha, hl⟩)))

/-- The types of a type list that can be filled have concrete kinds. -/
theorem isAbstract_of_fills_typeList
    (h : ((typeList ctx).tree.bind (Item.expand define)).Fills ctx opts) :
    ∀ t ∈ ctx.types, NodeKind.isAbstract t.kind = false := by
  intro t ht
  obtain ⟨s, s', v, hfill⟩ := h
  obtain ⟨vs, hitems, -⟩ := Tree.of_fill_array hfill
  obtain ⟨i, hi, rfl⟩ := Array.mem_iff_getElem.mp ht
  have hnode : typeNode (Id.ofSize i) ctx.types[i]
      ∈ ctx.types.toList.mapIdx (fun i t => typeNode (Id.ofSize i) t) ++ [noType] := by
    refine List.mem_append_left _ (List.mem_mapIdx.mpr ⟨i, by simpa using hi, ?_⟩)
    rw [Array.getElem_toList]
  exact (fills_of_node (Tree.fills_of_mem hitems _ (Tree.mem_bindItems (mem_itemTrees hnode)))).1

end Layout

/-! ### Nodes of outlines -/

/-- The node that a visit is to. -/
def Visit.node : Visit → NodeRef
  | .decl id => .decl id
  | .stmt id => .stmt id
  | .type id => .type id
  | .comment id => .comment id

theorem Visit.node_injective {v u : Visit} (h : v.node = u.node) : v = u := by
  cases v <;> cases u <;> cases h <;> rfl

/-- What a document has in the place of an absent node. -/
def NodeRef.isPlaceholder : NodeRef → Bool
  | .sentinel _ | .null => true
  | _ => false

/-- The node whose tuple a mark is for. -/
def Mark.nodes : Mark Item → List NodeRef
  | .node (.identity n) => [n]
  | _ => []

section Written

variable (ctx : Context) (opts : Options)

/-- The nodes of marks with everything that is defined inside them, less the placeholders. -/
def written (fuel : Nat) (ms : List (Mark Item)) : List NodeRef :=
  ((ms.flatMap (Mark.expand (Site.tree ctx opts fuel))).flatMap Mark.nodes).filter
    fun n => !n.isPlaceholder

theorem written_append (fuel : Nat) (ms ms' : List (Mark Item)) :
    written ctx opts fuel (ms ++ ms') = written ctx opts fuel ms ++ written ctx opts fuel ms' := by
  simp only [written, List.flatMap_append, List.filter_append]

theorem written_cons (fuel : Nat) (m : Mark Item) (ms : List (Mark Item)) :
    written ctx opts fuel (m :: ms) = written ctx opts fuel [m] ++ written ctx opts fuel ms :=
  written_append ctx opts fuel [m] ms

/-- One level down, a site has the nodes of its layout. -/
theorem written_define_succ (fuel : Nat) (s : Site) : written ctx opts (fuel + 1) [.define s]
    = written ctx opts fuel (Layout.outline none (s.layout ctx opts)) := by
  have houtline : [Mark.define s].flatMap (Mark.expand (Site.tree ctx opts (fuel + 1)))
      = s.outline ctx opts (fuel + 1) := List.append_nil _
  rw [written, houtline, Site.outline_succ]
  rfl

/-- The nodes of a list of marks, if there are none behind its silent ones. -/
theorem written_of_lists {fuel : Nat} (hsilent : ∀ m : Mark Item, m.IsSilent →
      written ctx opts fuel [m] = []) {ms : List (Mark Item)} {vs : List Visit}
    (h : Mark.Lists ms vs) :
    written ctx opts fuel ms = vs.flatMap fun v => written ctx opts fuel v.marks := by
  induction h with
  | nil => rfl
  | visit v _ ih => rw [written_append, ih, List.flatMap_cons]
  | silent hm _ ih => rw [written_cons, hsilent _ hm, ih, List.nil_append]

theorem written_silent : ∀ {fuel : Nat} {m : Mark Item}, m.IsSilent → written ctx opts fuel [m] = []
  | _, _, .head _ => rfl
  | _, _, .locations _ _ _ => rfl
  | _, _, .null => rfl
  | 0, _, .decl => rfl
  | 0, _, .stmt => rfl
  | 0, _, .comment => rfl
  | fuel + 1, _, .decl => by
    obtain ⟨ms, houtline, hms⟩ :=
      ctx.exists_lists_declNode opts (.sentinel .decl) (d := Layout.sentinelDecl) rfl
    rw [written_define_succ, Site.layout, houtline, written_cons,
      written_of_lists ctx opts (fun _ hm => written_silent hm) hms]
    rfl
  | fuel + 1, _, .stmt => by
    obtain ⟨ms, houtline, hms⟩ :=
      ctx.exists_lists_stmtNode (.sentinel .stmt) (s := Layout.sentinelStmt) rfl
    rw [written_define_succ, Site.layout, houtline, written_cons,
      written_of_lists ctx opts (fun _ hm => written_silent hm) hms]
    rfl
  | fuel + 1, _, .comment => by
    obtain ⟨ms, houtline, hms⟩ :=
      ctx.exists_lists_commentNode (.sentinel .comment) (c := Layout.sentinelComment) rfl
    rw [written_define_succ, Site.layout, houtline, written_cons,
      written_of_lists ctx opts (fun _ hm => written_silent hm) hms]
    rfl

/-- The nodes of a site whose layout lists what is written inside it. -/
theorem written_define {fuel : Nat} {s : Site} {n : NodeRef} (hn : n.isPlaceholder = false)
    {vs : List Visit} (h : ∃ ms, Layout.outline none (s.layout ctx opts) = .node (.identity n) :: ms
      ∧ Mark.Lists ms vs) :
    written ctx opts (fuel + 1) [.define s]
      = n :: vs.flatMap fun v => written ctx opts fuel v.marks := by
  obtain ⟨ms, houtline, hms⟩ := h
  have hnode : written ctx opts fuel [.node (.identity n)] = [n] := by
    simp [written, Mark.expand, Mark.nodes, hn]
  rw [written_define_succ, houtline, written_cons, hnode,
    written_of_lists ctx opts (fun _ hm => written_silent ctx opts hm) hms, List.singleton_append]

/-- What is written inside a node. -/
def Context.writtenIn : Visit → List Visit
  | .decl id => (ctx.decl? id).elim [] (ctx.writtenInDecl opts)
  | .stmt id => (ctx.stmt? id).elim [] ctx.writtenInStmt
  | .type _ => []
  | .comment id => (ctx.comment? id).elim [] ctx.writtenInComment

theorem Context.writtenIn_sublist {v : Visit} {inner : List Visit} (h : ctx.inside? v = some inner) :
    (ctx.writtenIn opts v).Sublist inner := by
  cases v with
  | decl id =>
    obtain ⟨d, hd, rfl⟩ := Option.map_eq_some_iff.mp h
    rw [writtenIn, hd]
    exact ctx.writtenInDecl_sublist opts d
  | stmt id =>
    obtain ⟨s, hs, rfl⟩ := Option.map_eq_some_iff.mp h
    rw [writtenIn, hs]
    exact ctx.writtenInStmt_sublist s
  | type id => exact List.nil_sublist _
  | comment id =>
    obtain ⟨c, hc, rfl⟩ := Option.map_eq_some_iff.mp h
    rw [writtenIn, hc]
    exact ctx.writtenInComment_sublist c

/-- `u` is written directly inside `v`. -/
def Context.Writes (v u : Visit) : Prop :=
  u ∈ ctx.writtenIn opts v

/-- Only what is in the arenas writes anything, and it writes what it holds. -/
theorem Context.Writes.holds {v u : Visit} (h : ctx.Writes opts v u) : ctx.Holds v u := by
  cases hinner : ctx.inside? v with
  | some inner => exact ⟨inner, hinner, (ctx.writtenIn_sublist opts hinner).subset h⟩
  | none =>
    rw [Context.Writes] at h
    cases v with
    | decl id | stmt id | comment id =>
      rw [Context.writtenIn, Option.map_eq_none_iff.mp hinner] at h
      cases h
    | type id => cases h

/-- A visited node has a concrete kind. -/
def Context.IsConcrete : Visit → Prop
  | .decl id => ∀ d, ctx.decl? id = some d → NodeKind.isAbstract d.kind = false
  | .stmt id => ∀ s, ctx.stmt? id = some s → NodeKind.isAbstract s.kind = false
  | .type _ => True
  | .comment id => ∀ c, ctx.comment? id = some c → NodeKind.isAbstract c.kind = false

variable {ctx opts}

/-- The layout of a node of a concrete kind lists what is written inside the node. -/
theorem exists_lists_layout {v : Visit} {s : Site} {inner : List Visit} (hs : v.marks = [.define s])
    (hinner : ctx.inside? v = some inner) (h : ctx.IsConcrete v) :
    ∃ ms, Layout.outline none (s.layout ctx opts) = .node (.identity v.node) :: ms
      ∧ Mark.Lists ms (ctx.writtenIn opts v) := by
  cases v with
  | decl id =>
    cases hs
    obtain ⟨d, hd, -⟩ := Option.map_eq_some_iff.mp hinner
    simp only [Site.layout, Context.writtenIn, hd]
    exact ctx.exists_lists_declNode opts (.decl id) (h d hd)
  | stmt id =>
    cases hs
    obtain ⟨s, hs, -⟩ := Option.map_eq_some_iff.mp hinner
    simp only [Site.layout, Context.writtenIn, hs]
    exact ctx.exists_lists_stmtNode (.stmt id) (h s hs)
  | type id => cases hs
  | comment id =>
    cases hs
    obtain ⟨c, hc, -⟩ := Option.map_eq_some_iff.mp hinner
    simp only [Site.layout, Context.writtenIn, hc]
    exact ctx.exists_lists_commentNode (.comment id) (h c hc)

/-- A node of a concrete kind, and what is written inside it. -/
theorem written_marks {v : Visit} {inner : List Visit} (hinner : ctx.inside? v = some inner)
    (h : ctx.IsConcrete v) (fuel : Nat) : written ctx opts (fuel + 1) v.marks
      = v.node :: (ctx.writtenIn opts v).flatMap fun u => written ctx opts fuel u.marks := by
  cases v with
  | type id => rfl
  | decl | stmt | comment => exact written_define ctx opts rfl (exists_lists_layout rfl hinner h)

/-- Nothing is written for a site with an empty outline. -/
theorem written_define_of_outline_nil {s : Site} (h : Layout.outline none (s.layout ctx opts) = [])
    (fuel : Nat) : written ctx opts (fuel + 1) [.define s] = [] := by
  rw [written_define_succ, h]
  rfl

/-- The layout of a node of an abstract kind has an empty outline. -/
theorem outline_of_not_isConcrete {v : Visit} {s : Site} (hs : v.marks = [.define s])
    (h : ¬ ctx.IsConcrete v) : Layout.outline none (s.layout ctx opts) = [] := by
  cases v with
  | decl id =>
    cases hs
    simp only [Context.IsConcrete, not_forall, Bool.not_eq_false] at h
    obtain ⟨d, hd, habstract⟩ := h
    simp only [Site.layout, hd]
    rw [Layout.outline_declNode, if_pos habstract]
  | stmt id =>
    cases hs
    simp only [Context.IsConcrete, not_forall, Bool.not_eq_false] at h
    obtain ⟨s, hs, habstract⟩ := h
    simp only [Site.layout, hs]
    rw [Layout.outline_stmtNode, if_pos habstract]
  | type id => cases hs
  | comment id =>
    cases hs
    simp only [Context.IsConcrete, not_forall, Bool.not_eq_false] at h
    obtain ⟨c, hc, habstract⟩ := h
    simp only [Site.layout, hc]
    rw [Layout.outline_commentNode, if_pos habstract]

/-- A node of an abstract kind is not written. -/
theorem written_marks_of_not_isConcrete {v : Visit} (h : ¬ ctx.IsConcrete v) (fuel : Nat) :
    written ctx opts (fuel + 1) v.marks = [] := by
  cases v with
  | type id => exact absurd trivial h
  | decl | stmt | comment =>
    exact written_define_of_outline_nil (outline_of_not_isConcrete rfl h) fuel

/-- A position outside its arena is not written, unless as the name of a type. -/
theorem eq_of_mem_written_missing {v : Visit} {fuel : Nat} {n : NodeRef} (h : ctx.inside? v = none)
    (hn : n ∈ written ctx opts (fuel + 1) v.marks) : n = v.node := by
  have hmissing : ∀ s e, v.marks = [.define s] → s.layout ctx opts = Layout.fault e →
      n = v.node := by
    intro s e hmarks hlayout
    have houtline : Layout.outline none (s.layout ctx opts) = [] := by
      rw [hlayout]
      rfl
    rw [hmarks, written_define_of_outline_nil houtline] at hn
    cases hn
  cases v with
  | decl id =>
    refine hmissing _ (.danglingNode (.decl id)) rfl ?_
    rw [Site.layout, Option.map_eq_none_iff.mp h]
  | stmt id =>
    refine hmissing _ (.danglingNode (.stmt id)) rfl ?_
    rw [Site.layout, Option.map_eq_none_iff.mp h]
  | type id => exact List.mem_singleton.mp hn
  | comment id =>
    refine hmissing _ (.danglingNode (.comment id)) rfl ?_
    rw [Site.layout, Option.map_eq_none_iff.mp h]

/-- What is written in the place of a node is the node, or is written in the place of one that is
written directly inside it. -/
theorem of_mem_written {v : Visit} {fuel : Nat} {n : NodeRef}
    (hn : n ∈ written ctx opts (fuel + 1) v.marks) :
    n = v.node ∨ ∃ u, ctx.Writes opts v u ∧ n ∈ written ctx opts fuel u.marks := by
  cases hinner : ctx.inside? v with
  | none => exact .inl (eq_of_mem_written_missing hinner hn)
  | some inner =>
    by_cases hconcrete : ctx.IsConcrete v
    · rw [written_marks hinner hconcrete] at hn
      rcases List.mem_cons.mp hn with hn | hn
      · exact .inl hn
      · exact .inr (List.mem_flatMap.mp hn)
    · rw [written_marks_of_not_isConcrete hconcrete] at hn
      cases hn

/-- Whatever is written in the place of a node is written inside it. -/
theorem reach_of_mem_written {fuel : Nat} : ∀ {v : Visit} {n : NodeRef},
    n ∈ written ctx opts fuel v.marks → ∃ u, ReflTransGen (ctx.Writes opts) v u ∧ n = u.node := by
  induction fuel with
  | zero =>
    intro v n hn
    cases v with
    | type id => exact ⟨.type id, .refl, List.mem_singleton.mp hn⟩
    | decl | stmt | comment => cases hn
  | succ fuel ih =>
    intro v n hn
    rcases of_mem_written hn with hn | ⟨u, hvu, hn⟩
    · exact ⟨v, .refl, hn⟩
    · obtain ⟨w, huw, hnw⟩ := ih hn
      exact ⟨w, .head hvu huw, hnw⟩

/-! ### Among the visits of a walk -/

/-- The nodes that are written are visited by the walk, in the same order. -/
theorem written_sublist {vs l : List Visit} (h : ctx.Walked vs l) (fuel : Nat) :
    (vs.flatMap fun v => written ctx opts fuel v.marks).Sublist (l.map Visit.node) := by
  induction h generalizing fuel with
  | nil => exact .refl _
  | @cons v inner l vs ls hinner hl hls ihl ihls =>
    have hfirst : (written ctx opts fuel v.marks).Sublist ((v :: l).map Visit.node) := by
      cases fuel with
      | zero =>
        cases v with
        | type id => exact (List.nil_sublist _).cons_cons _
        | decl | stmt | comment => exact List.nil_sublist _
      | succ fuel =>
        by_cases hconcrete : ctx.IsConcrete v
        · have hinside := ((ctx.writtenIn_sublist opts hinner).flatMap fun u =>
            written ctx opts fuel u.marks).trans (ihl fuel)
          rw [written_marks hinner hconcrete]
          exact hinside.cons_cons _
        · rw [written_marks_of_not_isConcrete hconcrete]
          exact List.nil_sublist _
    rw [List.flatMap_cons, List.map_append]
    exact hfirst.append (ihls fuel)

/-! ### All visits of a walk -/

variable (ctx opts)

/-- The site of a visited node can be filled. -/
def Visit.Fills (fuel : Nat) (v : Visit) : Prop :=
  ∀ s, .define s ∈ v.marks → (s.tree ctx opts fuel).Fills ctx opts

/-- The filter keeps every child of a visited declaration. -/
def Context.KeepsChildren : Visit → Prop
  | .decl id => ∀ d, ctx.decl? id = some d → d.kind.isDeclContext →
    ∀ child ∈ (d.context.getD {}).decls, ∀ c, ctx.decl? child = some c → opts.keeps ctx c = .ok true
  | _ => True

/-- A payload of a visited node that defines other nodes is read by a level of the kind of the
node. -/
def Context.ReadsPayload : Visit → Prop
  | .decl id => ∀ d, ctx.decl? id = some d → d.payload.definitions ≠ [] →
    ∃ level ∈ NodeKind.lineage d.kind, ctx.ReadsDecl opts d level
  | .stmt id => ∀ s, ctx.stmt? id = some s → s.payload.definitions ≠ [] →
    ∃ level ∈ NodeKind.lineage s.kind, ctx.ReadsStmt s level
  | _ => True

variable {ctx opts}

/-- A node that can be filled has a concrete kind. -/
theorem isConcrete_of_fills {v : Visit} {fuel : Nat} (h : v.Fills ctx opts (fuel + 1)) :
    ctx.IsConcrete v := by
  cases v with
  | decl id =>
    intro d hd
    have hfill := h (.decl (some id)) List.mem_cons_self
    simp only [Site.tree, Site.layout, hd] at hfill
    exact (Layout.fills_of_node hfill).1
  | stmt id =>
    intro s hs
    have hfill := h (.stmt (some id)) List.mem_cons_self
    simp only [Site.tree, Site.layout, hs] at hfill
    exact (Layout.fills_of_node hfill).1
  | type id => trivial
  | comment id =>
    intro c hc
    have hfill := h (.comment (some id)) List.mem_cons_self
    simp only [Site.tree, Site.layout, hc] at hfill
    exact (Layout.fills_of_node hfill).1

/-- A translation unit that can be filled has types of concrete kinds. -/
theorem isAbstract_of_fills {id : DeclId} {d : Decl} (hd : ctx.decl? id = some d)
    (hunit : d.kind = .translationUnit) {fuel : Nat} (h : (Visit.decl id).Fills ctx opts (fuel + 1)) :
    ∀ t ∈ ctx.types, NodeKind.isAbstract t.kind = false := by
  have hfill := h (.decl (some id)) List.mem_cons_self
  simp only [Site.tree, Site.layout, hd] at hfill
  refine Layout.isAbstract_of_fills_typeList ((Layout.fills_of_node hfill).2 .translationUnit ?_ _ ?_)
  · rw [hunit]
    decide
  · exact List.mem_append_right _ (List.mem_singleton.mpr rfl)

/-- Everything inside a node is written where the node can be filled, nothing is dropped, and nothing
is outside its arena. -/
theorem writtenIn_eq {v : Visit} {inner : List Visit} {fuel : Nat}
    (hinner : ctx.inside? v = some inner) (hinside : ∀ u ∈ inner, ∃ i, ctx.inside? u = some i)
    (hfills : v.Fills ctx opts (fuel + 1)) (hkeeps : ctx.KeepsChildren opts v)
    (hreads : ctx.ReadsPayload opts v) : ctx.writtenIn opts v = inner := by
  cases v with
  | decl id =>
    obtain ⟨d, hd, rfl⟩ := Option.map_eq_some_iff.mp hinner
    rw [Context.writtenIn, hd]
    refine ctx.writtenInDecl_eq opts (fun hcontext child hchild => ?_)
      (fun hunit => isAbstract_of_fills hd hunit hfills) (hreads d hd)
    have hmem : Visit.decl child ∈ ctx.insideDecl d := by
      rw [Context.insideDecl, if_pos hcontext]
      exact List.mem_append_left _ (List.mem_append_left _
        (List.mem_append_right _ (List.mem_map_of_mem hchild)))
    obtain ⟨i, hi⟩ := hinside _ hmem
    obtain ⟨c, hc, -⟩ := Option.map_eq_some_iff.mp hi
    exact ⟨c, hc, hkeeps d hd hcontext child hchild c hc⟩
  | stmt id =>
    obtain ⟨s, hs, rfl⟩ := Option.map_eq_some_iff.mp hinner
    rw [Context.writtenIn, hs]
    refine ctx.writtenInStmt_eq (fun id hid => ?_) (hreads s hs)
    have hmem : Visit.stmt id ∈ Visit.stmts s.children := List.mem_filterMap.mpr ⟨some id, hid, rfl⟩
    obtain ⟨i, hi⟩ := hinside _ (List.mem_append_left _ hmem)
    obtain ⟨s', hs', -⟩ := Option.map_eq_some_iff.mp hi
    rw [hs']
    rfl
  | type id =>
    obtain ⟨t, -, rfl⟩ := Option.map_eq_some_iff.mp hinner
    rfl
  | comment id =>
    obtain ⟨c, hc, rfl⟩ := Option.map_eq_some_iff.mp hinner
    rw [Context.writtenIn, hc]
    refine ctx.writtenInComment_eq fun id hid => ?_
    obtain ⟨i, hi⟩ := hinside (.comment id) (List.mem_filterMap.mpr ⟨some id, hid, rfl⟩)
    obtain ⟨c', hc', -⟩ := Option.map_eq_some_iff.mp hi
    rw [hc']
    rfl

/-- What is written inside a node that can be filled can be filled. -/
theorem fills_of_mem_writtenIn {v u : Visit} {inner : List Visit} {fuel : Nat}
    (hinner : ctx.inside? v = some inner) (h : v.Fills ctx opts (fuel + 1))
    (hu : u ∈ ctx.writtenIn opts v) : u.Fills ctx opts fuel := by
  intro site hsite
  have hsites : ∀ s, v.marks = [.define s] → (site.tree ctx opts fuel).Fills ctx opts := by
    intro s hs
    obtain ⟨ms, houtline, hms⟩ := exists_lists_layout hs hinner (isConcrete_of_fills h)
    obtain ⟨slots, slots', value, hfill⟩ := h s (by rw [hs]; exact List.mem_cons_self)
    have hslot : Mark.define site ∈ Layout.outline none (s.layout ctx opts) := by
      rw [houtline]
      exact List.mem_cons_of_mem _ (hms.mem hu hsite)
    exact Tree.fills_of_slot hfill hslot
  cases v with
  | type id => cases hu
  | decl | stmt | comment => exact hsites _ rfl

/-- A walk visits only what is written, where everything can be filled and nothing is dropped. -/
theorem written_eq {vs l : List Visit} (h : ctx.Walked vs l)
    (hkeeps : ∀ v ∈ l, ctx.KeepsChildren opts v) (hreads : ∀ v ∈ l, ctx.ReadsPayload opts v)
    {fuel : Nat} (hfills : ∀ v ∈ vs, v.Fills ctx opts fuel) :
    (vs.flatMap fun v => written ctx opts fuel v.marks) = l.map Visit.node := by
  induction h generalizing fuel with
  | nil => rfl
  | @cons v inner l vs ls hinner hl hls ihl ihls =>
    have hv := hfills v List.mem_cons_self
    have hfirst : written ctx opts fuel v.marks = (v :: l).map Visit.node := by
      cases fuel with
      | zero =>
        cases v with
        | type id =>
          obtain ⟨t, -, rfl⟩ := Option.map_eq_some_iff.mp hinner
          cases hl
          rfl
        | decl | stmt | comment =>
          obtain ⟨s, s', value, hfill⟩ := hv _ List.mem_cons_self
          cases hfill
      | succ fuel =>
        have heq : ctx.writtenIn opts v = inner :=
          writtenIn_eq hinner hl.exists_inside hv (hkeeps v List.mem_cons_self)
            (hreads v List.mem_cons_self)
        have hinside := ihl (fun u hu => hkeeps u (by simp [hu])) (fun u hu => hreads u (by simp [hu]))
          (fun u hu => fills_of_mem_writtenIn hinner hv (heq ▸ hu))
        rw [written_marks hinner (isConcrete_of_fills hv), heq, hinside, List.map_cons]
    have hrest := ihls (fun u hu => hkeeps u (by simp [hu])) (fun u hu => hreads u (by simp [hu]))
      (fun u hu => hfills u (List.mem_cons_of_mem v hu))
    rw [List.flatMap_cons, hfirst, hrest, ← List.map_append]

end Written

end SyntaxExport
