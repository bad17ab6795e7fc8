import SyntaxExport.Proofs.Layout.Tokens
import SyntaxExport.Proofs.Pass.Balance
import SyntaxExport.Proofs.Pass.Nesting
import SyntaxExport.Proofs.Pass.Visits
import SyntaxExport.Proofs.Recording

/-!
# Passes over sound layouts

A layout is sound if it has no fault, its locations are in files of the context, and what it defines
is absent or in its arena. Where every layout is sound and no node is defined inside itself, a document
is written to its end (`Session.write_of_sound`): a tree can only have the fault of a node that is
defined inside itself, below a chain of definitions as long as the nesting that a pass allows, and a
chain without repetitions is shorter than that.
-/

namespace SyntaxExport

open Relation (ReflTransGen TransGen)
open ScopedWriter (scopes Reliable)

/-! ### Sound layouts -/

/-- The node is in its arena. -/
def Context.Has (ctx : Context) (v : Visit) : Prop :=
  (ctx.inside? v).isSome

theorem Context.has_of_decl? {ctx : Context} {id : DeclId} {d : Decl} (h : ctx.decl? id = some d) :
    ctx.Has (.decl id) := by
  rw [Has, inside?, h]
  rfl

/-- Every location of a range is in a file of the context. -/
def Context.KnowsRange (ctx : Context) (r : SourceRange) : Prop :=
  (∀ l ∈ r.first, (ctx.fileName? l.file).isSome) ∧ ∀ l ∈ r.last, (ctx.fileName? l.file).isSome

@[simp] theorem Context.knowsRange_absent (ctx : Context) : ctx.KnowsRange {} :=
  ⟨by simp, by simp⟩

instance (ctx : Context) (r : SourceRange) : Decidable (ctx.KnowsRange r) :=
  inferInstanceAs (Decidable (_ ∧ _))

/-- The filter gives an answer for every declaration whose range is in files of the context. -/
def DeclFilter.Decides (f : DeclFilter) : Prop :=
  ∀ (ctx : Context) (d : Decl), ctx.KnowsRange d.range → ∃ keep, f.keeps ctx d = .ok keep

theorem DeclFilter.skipFiles_decides (names : List String) : (skipFiles names).Decides := by
  intro ctx d hrange
  rw [skipFiles]
  cases hfirst : d.range.first with
  | none => exact ⟨true, by simp [SourceRange.file?, hfirst]⟩
  | some l =>
    obtain ⟨name, hname⟩ := Option.isSome_iff_exists.mp (hrange.1 l hfirst)
    exact ⟨!names.contains name, by simp [SourceRange.file?, hfirst, hname]⟩

/-- A child of a context is looked up before the filter is asked, and the filter has an answer. -/
theorem Layout.keptChildren_cases {ctx : Context} {opts : Options}
    (hranges : ∀ d ∈ ctx.decls, ctx.KnowsRange d.range) (hfilter : ∀ f ∈ opts.filter, f.Decides) :
    ∀ ids : List DeclId,
      (∃ kept, keptChildren ctx opts ids = .ok kept ∧ ∀ id ∈ ids, (ctx.decl? id).isSome)
      ∨ ∃ id ∈ ids, ctx.decl? id = none
        ∧ keptChildren ctx opts ids = .error (.danglingNode (.decl id))
  | [] => .inl ⟨[], rfl, nofun⟩
  | id :: ids => by
    cases hd : ctx.decl? id with
    | none => exact .inr ⟨id, List.mem_cons_self, hd, by rw [keptChildren, hd]⟩
    | some d =>
      obtain ⟨keep, hkeep⟩ : ∃ keep, opts.keeps ctx d = .ok keep := by
        rw [Options.keeps]
        cases hf : opts.filter with
        | none => exact ⟨true, rfl⟩
        | some f => exact hfilter f hf ctx d (hranges d (Array.mem_of_getElem? hd))
      rcases keptChildren_cases hranges hfilter ids with ⟨kept, hkept, hids⟩ | ⟨i, hi, hnone, hrest⟩
      · refine .inl ⟨if keep then id :: kept else kept, ?_, ?_⟩
        · simp only [keptChildren, hd, hkeep, hkept]
        · exact List.forall_mem_cons.mpr ⟨by rw [hd]; rfl, hids⟩
      · refine .inr ⟨i, List.mem_cons_of_mem id hi, hnone, ?_⟩
        simp only [keptChildren, hd, hkeep, hrest]

/-- The node that a site defines is absent or in its arena. -/
def Site.IsPresent (ctx : Context) (s : Site) : Prop :=
  ∀ v ∈ s.visit?, ctx.Has v

/-- A leaf that does not end a pass, unless a node is defined inside itself. -/
def Item.IsSound (ctx : Context) : Item → Prop
  | .scalar _ | .identity _ => True
  | .location loc => ∀ l ∈ loc, (ctx.fileName? l.file).isSome
  | .define s => s.IsPresent ctx
  | .fault _ => False

namespace Layout

/-- Every leaf is sound. -/
abbrev IsSound (ctx : Context) (l : Layout) : Prop :=
  l.Leaves (Item.IsSound ctx)

variable {ctx : Context}

@[simp] theorem isSound_scalar (x : Scalar) : (Item.scalar x).IsSound ctx := trivial

@[simp] theorem isSound_identity (n : NodeRef) : (Item.identity n).IsSound ctx := trivial

@[simp] theorem isSound_range (r : SourceRange) : (range r).IsSound ctx ↔ ctx.KnowsRange r := by
  simp [range, Item.IsSound, Context.KnowsRange]

/-- A node is sound if the fields of its levels are. -/
theorem isSound_node {κ : Type} [NodeKind κ] {k : κ} {level : κ → List Layout} (ls : List Layout)
    (hkind : NodeKind.isAbstract k = false) (hlevels : (NodeKind.lineage k).flatMap level = ls)
    (h : ∀ l ∈ ls, l.IsSound ctx) : (node k level).IsSound ctx := by
  rw [node, hkind, if_neg Bool.false_ne_true]
  simp only [leaves_variant, leaves_tuple, hlevels]
  exact h

end Layout

/-! ### Allowed leaves -/

/-- A fault in the layout of a node: of its kind, its payload, or what it looks up. -/
def ExportError.IsNodeFault : ExportError → Prop
  | .abstractKind .. | .missingPayload .. | .danglingNode _ => True
  | _ => False

/-- A leaf that does not end a pass, or that ends it, if `faulty`, by the fault of a node. -/
def Item.Allowed (ctx : Context) (faulty : Prop) : Item → Prop
  | .scalar _ | .identity _ | .define _ => True
  | .location loc => ∀ l ∈ loc, (ctx.fileName? l.file).isSome
  | .fault e => faulty ∧ e.IsNodeFault

/-- Every leaf of a layout is allowed. -/
abbrev Layout.Allowed (ctx : Context) (faulty : Prop) (l : Layout) : Prop :=
  l.Leaves (Item.Allowed ctx faulty)

/-- Where faults are allowed and there is none, none need be allowed. -/
theorem Layout.allowed_of_faultless {ctx : Context} {l : Layout} (h : l.Allowed ctx True)
    (hfaultless : Faultless l.tree.tokens) : l.Allowed ctx False := by
  intro a ha
  have hallowed := h a ha
  cases a with
  | scalar | identity | define => trivial
  | location => exact hallowed
  | fault e => exact absurd ha (hfaultless e)

theorem Item.allowed_of_isSound {ctx : Context} {a : Item} (h : a.IsSound ctx) : a.Allowed ctx False := by
  cases a with
  | scalar | identity | define => trivial
  | location => exact h
  | fault => exact h.elim

/-! ### Definitions and what is held -/

theorem Mark.Lists.mem_of_define {ms : List (Mark Item)} {vs : List Visit} (h : Mark.Lists ms vs)
    {u : Site} {w : Visit} (hw : u.visit? = some w) (hu : Mark.define u ∈ ms) : w ∈ vs := by
  induction h with
  | nil => cases hu
  | visit v _ ih =>
    rcases List.mem_append.mp hu with hv | hrest
    · cases v with
      | type id => simp [Visit.marks, Mark.define] at hv
      | decl | stmt | comment =>
        cases List.mem_singleton.mp hv
        cases hw
        exact List.mem_cons_self
    · exact List.mem_cons_of_mem _ (ih hrest)
  | silent hm _ ih =>
    rcases List.mem_cons.mp hu with rfl | hrest
    · cases hm <;> cases hw
    · exact ih hrest

namespace Site

variable {ctx : Context} {opts : Options} {s u : Site} {v w : Visit}

theorem ne_type_of_visit? (hs : s.visit? = some v) (t : TypeId) : v ≠ .type t := by
  rintro rfl
  cases s <;> obtain ⟨id, -, htype⟩ := Option.map_eq_some_iff.mp hs <;> cases htype

theorem marks_of_visit? (hs : s.visit? = some v) : v.marks = [.define s] := by
  cases s <;> obtain ⟨id, rfl, rfl⟩ := Option.map_eq_some_iff.mp hs <;> rfl

/-- What the layout of a node defines is written inside the node. -/
theorem writes_of_defines (h : Defines ctx opts s u) (hs : s.visit? = some v)
    (hu : u.visit? = some w) : ctx.Writes opts v w := by
  obtain ⟨v', hv', hhold, -⟩ := exists_visit_of_defines h
  cases hs.symm.trans hv'
  obtain ⟨inner, hinner⟩ := Option.isSome_iff_exists.mp hhold
  have hmarks : v.marks = [.define s] := marks_of_visit? hs
  have hplaced : Tree.Placed (Layout.outline none (s.layout ctx opts)) := (Settled.layout opts s).1
  have hslot := (Tree.slot_of_define hplaced h).resolve_right List.not_mem_nil
  by_cases hconcrete : ctx.IsConcrete v
  · obtain ⟨ms, houtline, hms⟩ : ∃ ms,
        Layout.outline none (s.layout ctx opts) = .node (.identity v.node) :: ms
          ∧ Mark.Lists ms (ctx.writtenIn opts v) :=
      exists_lists_layout hmarks hinner hconcrete
    have hmem : Mark.define u ∈ ms := by
      have hnode : Mark.define u ∈ Mark.node (.identity v.node) :: ms := houtline ▸ hslot
      exact (List.mem_cons.mp hnode).resolve_left nofun
    exact hms.mem_of_define hu hmem
  · have hnil : Layout.outline none (s.layout ctx opts) = [] :=
      outline_of_not_isConcrete hmarks hconcrete
    rw [Layout.outline] at hnil
    rw [hnil] at hslot
    cases hslot

/-- What is written inside a node of a concrete kind is defined by the layout of the node. -/
theorem defines_of_writes (h : ctx.Writes opts v w) (hconcrete : ctx.IsConcrete v)
    (hs : s.visit? = some v) (hu : u.visit? = some w) : Defines ctx opts s u := by
  obtain ⟨inner, hinner, -⟩ := h.holds
  obtain ⟨ms, houtline, hms⟩ : ∃ ms,
      Layout.outline none (s.layout ctx opts) = .node (.identity v.node) :: ms
        ∧ Mark.Lists ms (ctx.writtenIn opts v) :=
    exists_lists_layout (marks_of_visit? hs) hinner hconcrete
  have hlisted : Mark.define u ∈ ms := by
    refine hms.mem h ?_
    rw [marks_of_visit? hu]
    exact List.mem_cons_self
  have hslot : Mark.define u ∈ Layout.outline none (s.layout ctx opts) := by
    rw [houtline]
    exact List.mem_cons_of_mem _ hlisted
  exact Tree.define_of_slot [] hslot

/-- What the layout of a node defines is inside the node. -/
theorem holds_of_defines (h : Defines ctx opts s u) (hs : s.visit? = some v)
    (hu : u.visit? = some w) : ctx.Holds v w :=
  (writes_of_defines h hs hu).holds

theorem transGen_holds (h : TransGen (Defines ctx opts) s u) :
    ∀ {v}, s.visit? = some v → u.visit? = some w → TransGen ctx.Holds v w := by
  induction h using TransGen.head_induction_on with
  | single h => exact fun hs hu => .single (holds_of_defines h hs hu)
  | @head s m h hmu ih =>
    intro v hs hu
    obtain ⟨x, hmx, -⟩ : ∃ x, m.visit? = some x ∧ ctx.CanHold x := by
      obtain ⟨n, hn, -⟩ := TransGen.head'_iff.mp hmu
      exact exists_visit_of_defines hn
    exact .head (holds_of_defines h hs hmx) (ih hmx hu)

/-- Nothing that a translation unit defines is defined inside itself, where this holds of its nodes. -/
theorem not_transGen_of_acyclic {root : DeclId} (hacyclic : ctx.Acyclic (.decl root))
    (hreach : ReflTransGen (Defines ctx opts) (.decl (some root)) u) :
    ¬ TransGen (Defines ctx opts) u u := by
  intro hcycle
  obtain ⟨w, hw, -⟩ := TransGen.head'_iff.mp hcycle
  obtain ⟨v, hv, -⟩ := exists_visit_of_defines hw
  have hrootv : ReflTransGen ctx.Holds (.decl root) v := by
    rcases Relation.reflTransGen_iff_eq_or_transGen.mp hreach with rfl | hreach
    · cases hv
      exact .refl
    · exact (transGen_holds hreach rfl hv).to_reflTransGen
  exact hacyclic v hrootv (transGen_holds hcycle hv hv)

/-! ### Leaves of trees -/

/-- A leaf of a tree is one of the layouts that are defined inside it, unless a chain of definitions uses
up the nesting. -/
theorem leaf_or_descends : ∀ {n : Nat} {s : Site} {a : Item}, .leaf a ∈ (s.tree ctx opts n).tokens →
    (∃ u, ReflTransGen (Defines ctx opts) s u ∧ .leaf a ∈ (u.layout ctx opts).tree.tokens
      ∧ ∀ w, a ≠ .define w) ∨ Descends (Defines ctx opts) s n
  | 0, s, _, _ => .inr (.zero s)
  | n + 1, s, a, ha => by
    rw [tokens_tree_succ] at ha
    obtain ⟨t, ht, hta⟩ := List.mem_flatMap.mp ha
    cases t with
    | container | variant | close | tag => cases List.mem_singleton.mp hta
    | leaf b =>
      cases b with
      | scalar | identity | location | fault =>
        cases List.mem_singleton.mp hta
        exact .inl ⟨s, .refl, ht, nofun⟩
      | define u =>
        rcases leaf_or_descends hta with ⟨w, huw, hleaf⟩ | hchain
        · exact .inl ⟨w, .head ht huw, hleaf⟩
        · exact .inr (.step ht hchain)

/-- Where no node is defined inside itself, the leaves of the tree of a translation unit are those of the
layouts that are defined inside it. -/
theorem exists_layout_of_leaf {root : DeclId} (hacyclic : ctx.Acyclic (.decl root)) {a : Item}
    (ha : .leaf a ∈ (Site.tree ctx opts ctx.nestingBound (.decl (some root))).tokens) :
    ∃ u, ReflTransGen (Defines ctx opts) (.decl (some root)) u
      ∧ .leaf a ∈ (u.layout ctx opts).tree.tokens ∧ ∀ w, a ≠ .define w :=
  (leaf_or_descends ha).resolve_right (not_descends fun _ hu => not_transGen_of_acyclic hacyclic hu)

/-- What is defined inside a site is absent or in its arena, where the layouts are sound. -/
theorem isPresent_of_reach
    (hsound : ∀ s : Site, s.IsPresent ctx → (s.layout ctx opts).IsSound ctx) (hs : s.IsPresent ctx)
    (h : ReflTransGen (Defines ctx opts) s u) : u.IsPresent ctx := by
  induction h with
  | refl => exact hs
  | tail _ hmu ih => exact hsound _ ih _ hmu

end Site

/-! ### Filling -/

section Filling

variable {ctx : Context} {opts : Options}

/-- A location in a file of the context has a value. -/
theorem LocationCursor.exists_value (c : LocationCursor) (paths : PathRule)
    {loc : Option SourceLocation} (h : ∀ l ∈ loc, (ctx.fileName? l.file).isSome) :
    ∃ v, (c.delta loc).value ctx paths = .ok v := by
  cases loc with
  | none => exact ⟨_, rfl⟩
  | some l =>
    obtain ⟨name, hname⟩ := Option.isSome_iff_exists.mp (h l rfl)
    rw [delta]
    split
    · exact ⟨_, by rw [LocationDelta.value, hname]⟩
    · split <;> exact ⟨_, rfl⟩

theorem Item.isNodeFault_of_fill {a : Item} {faulty : Prop} {s : Slots} {e : ExportError}
    (hallowed : a.Allowed ctx faulty) (hready : ∀ u, a ≠ .define u)
    (h : a.fill ctx opts s = .error e) : faulty ∧ e.IsNodeFault := by
  cases a with
  | scalar | identity => cases h
  | define u => exact absurd rfl (hready u)
  | fault e' =>
    cases h
    exact hallowed
  | location loc =>
    obtain ⟨v, hv⟩ := s.cursor.exists_value opts.paths hallowed
    rw [fill, hv] at h
    cases h

/-- The tree of a translation unit in which no node is defined inside itself cannot be filled only if
faults are allowed, and its error is then the fault of a node. -/
theorem isNodeFault_of_fill {root : DeclId} {faulty : Prop} {slots : Slots} {e : ExportError}
    (hacyclic : ctx.Acyclic (.decl root))
    (hallowed : ∀ u, ReflTransGen (Site.Defines ctx opts) (.decl (some root)) u →
      (u.layout ctx opts).Allowed ctx faulty)
    (h : (Site.tree ctx opts ctx.nestingBound (.decl (some root))).fill ctx opts slots = .error e) :
    faulty ∧ e.IsNodeFault := by
  obtain ⟨a, s, ha, herror⟩ := Tree.exists_leaf_of_fill h
  obtain ⟨u, hu, hleaf, hready⟩ := Site.exists_layout_of_leaf hacyclic ha
  exact Item.isNodeFault_of_fill (hallowed u hu a hleaf) hready herror

/-- The tree of a translation unit can be filled where every layout is sound and no node is defined
inside itself. -/
theorem exists_fill_of_sound {root : DeclId}
    (hsound : ∀ s : Site, s.IsPresent ctx → (s.layout ctx opts).IsSound ctx)
    (hroot : ctx.Has (.decl root)) (hacyclic : ctx.Acyclic (.decl root)) (slots : Slots) :
    ∃ x, (Site.tree ctx opts ctx.nestingBound (.decl (some root))).fill ctx opts slots = .ok x := by
  have hpresent : (Site.decl (some root)).IsPresent ctx := by
    rintro v ⟨⟩
    exact hroot
  have hallowed : ∀ u, ReflTransGen (Site.Defines ctx opts) (.decl (some root)) u →
      (u.layout ctx opts).Allowed ctx False := fun u hu a ha =>
    Item.allowed_of_isSound (hsound u (Site.isPresent_of_reach hsound hpresent hu) a ha)
  cases hfill : (Site.tree ctx opts ctx.nestingBound (.decl (some root))).fill ctx opts slots with
  | ok x => exact ⟨x, rfl⟩
  | error e => exact (isNodeFault_of_fill hacyclic hallowed hfill).1.elim

/-- Where every layout is sound and no node is defined inside itself, every session writes the
translation unit to the end of a fresh writer. -/
theorem Session.write_of_sound {σ : Type} [ScopedWriter σ] {w : σ} {root : DeclId} {d : Decl}
    (hw : Reliable w) (hfresh : scopes w = {}) (hvalid : opts.validate = .ok ())
    (hroot : ctx.decl? root = some d) (hunit : d.kind = .translationUnit)
    (hsound : ∀ s : Site, s.IsPresent ctx → (s.layout ctx opts).IsSound ctx)
    (hacyclic : ctx.Acyclic (.decl root)) (s : Session) (hs : s.inUse = false) :
    (s.write ctx root opts w).1 = .ok () := by
  obtain ⟨⟨v, slots⟩, hfill⟩ :=
    exists_fill_of_sound hsound (Context.has_of_decl? hroot) hacyclic ⟨{}, s.identities⟩
  have hcheck := Options.check_of_translationUnit hvalid hroot hunit
  obtain ⟨w₁, w', -, -, hwrite⟩ := write_of_fill hw hfresh hs hcheck hfill
  rw [hwrite]

end Filling

end SyntaxExport
