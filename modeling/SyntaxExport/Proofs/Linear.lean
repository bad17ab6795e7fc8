import Mathlib.Algebra.BigOperators.Ring.List
import Mathlib.Algebra.Order.BigOperators.Group.List
import Mathlib.Algebra.Order.Group.Nat
import Mathlib.Algebra.Ring.Nat
import SyntaxExport.Proofs.Layout.Cost
import SyntaxExport.Proofs.Layout.Tokens
import SyntaxExport.Proofs.Visits

/-!
# The length of documents

A node is written once at every place where it is defined, and is mentioned everywhere else. A mention
has no place where anything is defined, it costs no more than the name in it, and it does not depend on
what its target defines (`Layout.Mention`). So a document is no longer than the volume of the walk of
its translation unit, up to a constant and the length of the names (`Session.events_linear`): the graph
of the mentions, cyclic or not, does not come into it.
-/

namespace SyntaxExport

/-! ### Trees of sites -/

namespace Site

variable (ctx : Context) (opts : Options)

/-- The layout of an absent node costs what the place of a definition costs, and defines nothing. -/
theorem cost_layout_placeholder {s : Site} (h : s.node.isPlaceholder) :
    (s.layout ctx opts).cost ≤ 30 ∧
      ∀ define, markCost define (Layout.outline none (s.layout ctx opts)) = 0 := by
  rcases s with (_ | _) | (_ | _) | (_ | _)
  · rw [layout, Layout.declNode_sentinel]
    exact ⟨Nat.le_of_ble_eq_true rfl, fun _ => rfl⟩
  · cases h
  · rw [layout, Layout.stmtNode_sentinel]
    exact ⟨Nat.le_of_ble_eq_true rfl, fun _ => rfl⟩
  · cases h
  · rw [layout, Layout.commentNode_sentinel]
    exact ⟨Nat.le_of_ble_eq_true rfl, fun _ => rfl⟩
  · cases h

/-- One level of a tree costs its layout and what is defined at the marks, if absent nodes cost what
their places do. -/
theorem cost_tree_le_marks {fuel : Nat}
    (h : ∀ u : Site, u.node.isPlaceholder → (u.tree ctx opts fuel).cost ≤ 30) (s : Site) :
    (s.tree ctx opts (fuel + 1)).cost ≤ (s.layout ctx opts).cost
      + markCost (tree ctx opts fuel) (Layout.outline none (s.layout ctx opts)) := by
  have hplaced : Tree.Placed (Layout.outline none (s.layout ctx opts)) := (Settled.layout opts s).1
  exact Tree.cost_bind_le h hplaced

theorem cost_tree_placeholder : ∀ (fuel : Nat) {s : Site}, s.node.isPlaceholder →
    (s.tree ctx opts fuel).cost ≤ 30
  | 0, _, _ => Nat.zero_le 30
  | fuel + 1, s, h => by
    have htree := cost_tree_le_marks ctx opts (fun _ hu => cost_tree_placeholder fuel hu) s
    obtain ⟨hlayout, hmarks⟩ := cost_layout_placeholder ctx opts h
    rw [hmarks] at htree
    exact Nat.le_trans htree hlayout

variable {ctx opts}

/-- One level down, a site costs at most what its layout costs with the nodes that it holds. -/
theorem cost_tree_succ_le {v : Visit} {s : Site} {inner : List Visit} (hs : v.marks = [.define s])
    (hinner : ctx.inside? v = some inner) (fuel : Nat) : (s.tree ctx opts (fuel + 1)).cost
      ≤ (s.layout ctx opts).cost + (inner.map (Visit.cost (tree ctx opts fuel))).sum := by
  have htree := cost_tree_le_marks ctx opts (fun _ hu => cost_tree_placeholder ctx opts fuel hu) s
  have hinside : markCost (tree ctx opts fuel) (Layout.outline none (s.layout ctx opts))
      ≤ (inner.map (Visit.cost (tree ctx opts fuel))).sum := by
    by_cases hconcrete : ctx.IsConcrete v
    · obtain ⟨ms, houtline, hms⟩ : ∃ ms, Layout.outline none (s.layout ctx opts)
          = .node (.identity v.node) :: ms ∧ Mark.Lists ms (ctx.writtenIn opts v) :=
        exists_lists_layout hs hinner hconcrete
      have hnode : markCost (tree ctx opts fuel) (.node (.identity v.node) :: ms)
          = markCost (tree ctx opts fuel) ms := Nat.zero_add _
      rw [houtline, hnode, markCost_of_lists hms]
      exact ((ctx.writtenIn_sublist opts hinner).map _).sum_le_sum fun _ _ => Nat.zero_le _
    · rw [outline_of_not_isConcrete hs hconcrete]
      exact Nat.zero_le _
  omega

/-- What is outside its arena is a fault, which costs nothing. -/
theorem cost_tree_of_missing {v : Visit} {s : Site} (hs : v.marks = [.define s])
    (h : ctx.inside? v = none) (fuel : Nat) : (s.tree ctx opts fuel).cost = 0 := by
  cases fuel with
  | zero => rfl
  | succ fuel =>
    cases v with
    | type id => cases hs
    | decl id | stmt id | comment id =>
      cases hs
      rw [tree, layout, Option.map_eq_none_iff.mp h]
      rfl

theorem sum_cost_le {define : Site → Tree Item} {f : Visit → Nat} {n b : Nat}
    (h : ∀ v, v.cost define ≤ n * (f v * b)) (vs : List Visit) :
    (vs.map (Visit.cost define)).sum ≤ n * ((vs.map f).sum * b) := by
  rw [← List.sum_map_mul_right vs f b, ← List.sum_map_mul_left]
  exact List.sum_le_sum fun v _ => h v

/-- A site costs a constant for the volume of the walk of its node and the length of names. -/
theorem cost_tree_le : ∀ (fuel : Nat) {v : Visit} {s : Site}, v.marks = [.define s] →
    (s.tree ctx opts fuel).cost
      ≤ Layout.factor 8 * (ctx.volumeFrom fuel v * ctx.nameBound)
  | 0, _, _, _ => Nat.zero_le _
  | fuel + 1, v, s, hs => by
    cases hinner : ctx.inside? v with
    | none =>
      rw [cost_tree_of_missing hs hinner]
      exact Nat.zero_le _
    | some inner =>
      have hvisit : ∀ u : Visit, u.cost (tree ctx opts fuel)
          ≤ Layout.factor 8 * (ctx.volumeFrom fuel u * ctx.nameBound) := by
        intro u
        cases u with
        | type id => exact Nat.zero_le _
        | decl id | stmt id | comment id => exact cost_tree_le fuel rfl
      have hlayout := cost_layout_le ctx opts hs
      have hinside := sum_cost_le hvisit inner
      have htree : (s.tree ctx opts (fuel + 1)).cost ≤ _ := cost_tree_succ_le hs hinner fuel
      rw [Context.volumeFrom_succ hinner, Nat.add_mul, Nat.mul_add]
      omega

end Site

/-! ### Mentions -/

/-- What a mention reads of a declaration. -/
def Decl.surface (d : Decl) : DeclKind × Option DeclName × Bool × Option QualType :=
  (d.kind, d.name, d.flags.hidden, d.valueType)

/-- What a mention reads of a type. -/
def TypeNode.surface (t : TypeNode) : String × Option TypeId :=
  (t.spelling, t.desugared)

/-- Two contexts in which mentions read the same. What the nodes define may be different. -/
structure Context.SameSurface (ctx ctx' : Context) : Prop where
  decl : ∀ id, (ctx.decl? id).map Decl.surface = (ctx'.decl? id).map Decl.surface
  type : ∀ id, (ctx.type? id).map TypeNode.surface = (ctx'.type? id).map TypeNode.surface

namespace Layout

/-- The ways to mention a node that is defined elsewhere: its pointer, which stands for types as well,
a link to another declaration of the same entity, a digest, and a type with its spelling. -/
inductive Mention (ctx : Context) : Layout → Prop where
  | pointer (n : NodeRef) : Mention ctx (identity n)
  | link (r : Redeclaration) : Mention ctx (redeclaration r)
  | digest (id : DeclId) : Mention ctx (declRef ctx id)
  | typed (q : QualType) : Mention ctx (qualType ctx q)

namespace Mention

variable {ctx : Context} {l : Layout}

theorem outline_eq_nil (h : Mention ctx l) : outline none l = [] := by
  cases h with
  | pointer n => rfl
  | link r => cases r <;> rfl
  | digest id => exact outline_declRef none ctx id
  | typed q => exact outline_qualType none ctx q

/-- Nothing is defined in a mention. -/
theorem define_notMem (h : Mention ctx l) (s : Site) : .leaf (.define s) ∉ l.tree.tokens := by
  intro hmem
  have houtline : l.tree.outline none = [] := h.outline_eq_nil
  have hplaced : Tree.Placed (l.tree.outline none) := by
    rw [houtline]
    exact nofun
  rcases Tree.slot_of_define hplaced hmem with hslot | hrest
  · rw [houtline] at hslot
    cases hslot
  · cases hrest

theorem fits (h : Mention ctx l) : l.Fits ctx.nameBound 0 3 := by
  cases h with
  | pointer n => exact fits_leaf _
  | link r => cases r <;> exact fits_leaf _
  | digest id => exact fits_declRef ctx id
  | typed q => exact fits_qualType ctx q

/-- A mention costs a constant for the length of names. -/
theorem cost_le (h : Mention ctx l) : l.cost ≤ factor 8 * ctx.nameBound := by
  have hcost := cost_of_fits ctx h.fits
  rw [Nat.add_zero, Nat.one_mul] at hcost
  exact le_factor_of_le (by decide) hcost

end Mention

end Layout

namespace Context.SameSurface

variable {ctx ctx' : Context} (h : ctx.SameSurface ctx')

include h

theorem isNone_type? (id : TypeId) : (ctx.type? id).isNone = (ctx'.type? id).isNone := by
  have htype := congrArg Option.isNone (h.type id)
  rwa [Option.isNone_map, Option.isNone_map] at htype

/-- A type is in both contexts, with one spelling and one type without sugar, or in none. -/
theorem type_cases (id : TypeId) : (ctx.type? id = none ∧ ctx'.type? id = none) ∨
    ∃ t t', ctx.type? id = some t ∧ ctx'.type? id = some t' ∧ t.spelling = t'.spelling
      ∧ t.desugared = t'.desugared := by
  have htype := h.type id
  cases ht : ctx.type? id with
  | none =>
    rw [ht] at htype
    exact .inl ⟨rfl, Option.map_eq_none_iff.mp htype.symm⟩
  | some t =>
    rw [ht] at htype
    obtain ⟨t', ht', hsurface⟩ := Option.map_eq_some_iff.mp htype.symm
    obtain ⟨hspelling, hdesugared⟩ := Prod.mk.inj hsurface
    exact .inr ⟨t, t', rfl, ht', hspelling.symm, hdesugared.symm⟩

theorem spelling_eq (q : QualType) : ctx.spelling q = ctx'.spelling q := by
  unfold spelling
  split
  · rfl
  · next t _ =>
    rcases h.type_cases t with ⟨ht, ht'⟩ | ⟨n, n', ht, ht', hspelling, -⟩
    · rw [ht, ht']
    · simp only [ht, ht', hspelling]

theorem desugaredSpelling_eq (q : QualType) :
    ctx.desugaredSpelling q = ctx'.desugaredSpelling q := by
  unfold desugaredSpelling
  split
  · rfl
  · next t _ =>
    rcases h.type_cases t with ⟨ht, ht'⟩ | ⟨n, n', ht, ht', hspelling, hdesugared⟩
    · rw [ht, ht']
    · simp only [ht, ht', hdesugared, hspelling]
      cases n'.desugared with
      | none => rfl
      | some d =>
        rcases h.type_cases d with ⟨hd, hd'⟩ | ⟨u, u', hd, hd', hspelling', -⟩
        · simp only [hd, hd']
        · simp only [hd, hd', hspelling']

theorem missingType?_eq (q : QualType) :
    Layout.missingType? ctx q = Layout.missingType? ctx' q := by
  unfold Layout.missingType?
  split
  · rfl
  · next t _ =>
    rcases h.type_cases t with ⟨ht, ht'⟩ | ⟨n, n', ht, ht', -, hdesugared⟩
    · rw [ht, ht']
    · simp only [ht, ht', hdesugared, h.isNone_type?]

theorem qualType_eq (q : QualType) : Layout.qualType ctx q = Layout.qualType ctx' q := by
  simp only [Layout.qualType, h.missingType?_eq, h.spelling_eq, h.desugaredSpelling_eq]

theorem declRef_eq (id : DeclId) : Layout.declRef ctx id = Layout.declRef ctx' id := by
  have hdecl := h.decl id
  unfold Layout.declRef
  cases hd : ctx.decl? id with
  | none =>
    rw [hd] at hdecl
    rw [Option.map_eq_none_iff.mp hdecl.symm]
  | some d =>
    rw [hd] at hdecl
    obtain ⟨d', hd', hsurface⟩ := Option.map_eq_some_iff.mp hdecl.symm
    simp only [Decl.surface, Prod.mk.injEq] at hsurface
    obtain ⟨hkind, hname, hhidden, hvalue⟩ := hsurface
    have htype : Layout.qualType ctx = Layout.qualType ctx' := funext h.qualType_eq
    simp only [hd', Layout.declDigest, Layout.nameOf, hkind, hname, hhidden, hvalue, htype]

end Context.SameSurface

/-- The surface of a context stays if a declaration is given another definition. -/
theorem Context.sameSurface_modifyDecl (ctx : Context) (id : DeclId) {f : Decl → Decl}
    (h : ∀ d, (f d).surface = d.surface) : ctx.SameSurface (ctx.modifyDecl id f) where
  decl i := by
    rw [decl?, decl?, modifyDecl, Array.getElem?_modify]
    split
    · rw [Option.map_map]
      exact congrArg (fun g => Option.map g _) (funext fun d => (h d).symm)
    · rfl
  type _ := rfl

/-! ### Sessions -/

namespace Session

/-- There is one constant for all documents that are written, of any context and with any options: a
document has at most so many events for each unit of the volume of the walk of its translation unit
and each component of the longest name. If the walk succeeds, its volume is counted over its visits.

Mentions define nothing, and the constant bounds them by the longest name alone. They are the same in
any context that has the same surface, whatever its nodes define. -/
theorem events_linear : ∃ K : Nat,
    (∀ {ctx : Context} {root : DeclId} {opts : Options} {s s' : Session} {r : Recorder},
      s.write ctx root opts ({} : Recorder) = (.ok (), s', r) →
      r.events.size ≤ K * ctx.volume root * ctx.nameBound) ∧
    (∀ {ctx : Context} {root : DeclId} {visits : List Visit}, ctx.walk root = .ok visits →
      ctx.volume root = (visits.map ctx.share).sum) ∧
    (∀ {ctx : Context} {l : Layout}, Layout.Mention ctx l →
      (∀ site, .leaf (.define site) ∉ l.tree.tokens) ∧
      ∀ {opts : Options} {slots slots' : Slots} {v : Value},
        l.tree.fill ctx opts slots = .ok (v, slots') → v.tokens.length ≤ K * ctx.nameBound) ∧
    (∀ {ctx ctx' : Context}, ctx.SameSurface ctx' →
      (∀ id, Layout.declRef ctx id = Layout.declRef ctx' id) ∧
      ∀ q, Layout.qualType ctx q = Layout.qualType ctx' q) := by
  refine ⟨Layout.factor 8, ?_, Context.volume_of_walk, ?_, ?_⟩
  · intro ctx root opts s s' r h
    obtain ⟨v, w, hfill, hcalls, hfinish⟩ := performs_of_write (w := ({} : Recorder)) trivial rfl h
    have hevents : r.events.size = v.tokens.length := by
      rw [← Array.length_toList, Recorder.events_of_document hcalls hfinish, List.length_map]
    have hlength := Tree.length_le_of_fill hfill
    have hcost : (Site.tree ctx opts ctx.nestingBound (.decl (some root))).cost
        ≤ Layout.factor 8 * (ctx.volume root * ctx.nameBound) :=
      Site.cost_tree_le ctx.nestingBound rfl
    rw [hevents, Nat.mul_assoc]
    exact Nat.le_trans hlength hcost
  · intro ctx l hmention
    refine ⟨hmention.define_notMem, fun hfill => ?_⟩
    exact Nat.le_trans (Tree.length_le_of_fill hfill) hmention.cost_le
  · intro ctx ctx' hsurface
    exact ⟨hsurface.declRef_eq, hsurface.qualType_eq⟩

/-- A translation unit with a record that holds a pointer to its own type and follows a declaration that
follows it. -/
def cyclicUnit : Context where
  files := #["list.c"]
  decls := #[{ kind := .translationUnit, context := some { decls := [⟨1⟩, ⟨3⟩] } },
    { kind := .record, name := some (.simple "node"), typeForDecl := some ⟨0⟩,
      redeclaration := some (.previous ⟨3⟩), context := some {} ,
      payload := .record {} },
    { kind := .field, name := some ⟨"next", "node::next"⟩, valueType := some { type := some ⟨1⟩ },
      payload := .field {} },
    { kind := .record, name := some (.simple "node"), typeForDecl := some ⟨0⟩,
      redeclaration := some (.previous ⟨1⟩), context := some { decls := [⟨2⟩] },
      payload := .record { isCompleteDefinition := true } }]
  types := #[{ kind := .record, spelling := "struct node", payload := .tag ⟨1⟩ },
    { kind := .pointer, spelling := "struct node *", payload := .child (some ⟨0⟩) }]

/-- The records and types of the unit mention each other, and the document is as long as its volume.
The digest of the record is the same without its fields. -/
theorem events_linear_cyclicUnit : ∃ (K : Nat) (s' : Session) (r : Recorder) (v : Value)
    (slots : Slots),
    ({} : Session).write cyclicUnit ⟨0⟩ { identityMode := .raw } ({} : Recorder) = (.ok (), s', r) ∧
    r.events.size ≤ K * 9 * 3 ∧
    cyclicUnit.walk ⟨0⟩
      = .ok [.decl ⟨0⟩, .decl ⟨1⟩, .decl ⟨3⟩, .decl ⟨2⟩, .type ⟨0⟩, .type ⟨1⟩] ∧
    (Layout.declRef cyclicUnit ⟨3⟩).tree.fill cyclicUnit { identityMode := .raw } ⟨{}, .empty⟩
      = .ok (v, slots) ∧ v.tokens.length ≤ K * 3 ∧
    Layout.declRef cyclicUnit ⟨3⟩
      = Layout.declRef (cyclicUnit.modifyDecl ⟨3⟩ fun d => { d with context := none }) ⟨3⟩ := by
  have hok : (({} : Session).write cyclicUnit ⟨0⟩ { identityMode := .raw }
      ({} : Recorder)).1.isOk = true := by
    decide +kernel
  obtain ⟨v, slots, hfill⟩ : ∃ v slots, (Layout.declRef cyclicUnit ⟨3⟩).tree.fill cyclicUnit
      { identityMode := .raw } ⟨{}, .empty⟩ = .ok (v, slots) := ⟨_, _, rfl⟩
  obtain ⟨K, hevents, hwalk, hmention, hsurface⟩ := events_linear
  have hvisits : cyclicUnit.walk ⟨0⟩
      = .ok [.decl ⟨0⟩, .decl ⟨1⟩, .decl ⟨3⟩, .decl ⟨2⟩, .type ⟨0⟩, .type ⟨1⟩] := rfl
  have hvolume : cyclicUnit.volume ⟨0⟩ = 9 := hwalk hvisits
  have hnames : cyclicUnit.nameBound = 3 := by decide
  have hdigest : Layout.Mention cyclicUnit (Layout.declRef cyclicUnit ⟨3⟩) := .digest ⟨3⟩
  obtain ⟨-, hlength⟩ := hmention hdigest
  obtain ⟨hdigests, -⟩ := hsurface (cyclicUnit.sameSurface_modifyDecl ⟨3⟩
    (f := fun d => { d with context := none }) fun _ => rfl)
  obtain ⟨⟨s', r⟩, hwrite⟩ := exists_of_isOk hok
  have hsize := hevents hwrite
  have htokens := hlength hfill
  rw [hvolume, hnames] at hsize
  rw [hnames] at htokens
  exact ⟨K, s', r, v, slots, hwrite, hsize, hvisits, hfill, htokens, hdigests ⟨3⟩⟩

end Session

end SyntaxExport
