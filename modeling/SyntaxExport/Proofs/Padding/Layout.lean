import SyntaxExport.Proofs.Padding.Basic
import SyntaxExport.Proofs.Pass.Balance
import SyntaxExport.Proofs.Renaming.Nodes
import SyntaxExport.Proofs.Renaming.Refl

/-!
# Layouts of padded nodes

Where the layout of a node has no fault, the layout of the padded node is the same but for the slots
that were absent, which define new nodes. Positions and mentions do not change, so most parts of a
layout carry over unchanged; what is left are the children of statements and comments and the
declaration that a block or a lambda owns.
-/

namespace SyntaxExport

variable {ctx ctx' : Context}

theorem Context.PaddedInto.mentionedIn (h : ctx.PaddedInto ctx') : ctx.MentionedIn .refl ctx' := by
  refine Context.mentionedIn_refl h.decl ?_ h.types
  intro id a ha
  rw [Context.attr?, h.attrs]
  exact ha

/-- A statement owns no declaration, or it is a block or a lambda with one that may be absent. -/
theorem Stmt.owned_eq (s : Stmt) :
    (s.owned = [] ∧ (s.kind = .blockExpr ∨ s.kind = .lambdaExpr → s.payload ≠ .ownedDecl none)) ∨
    ∃ d, s.owned = [d] ∧ (s.kind = .blockExpr ∨ s.kind = .lambdaExpr)
      ∧ s.payload = .ownedDecl d := by
  unfold owned
  split
  · next hkind =>
    split
    · next d hp => exact .inr ⟨d, rfl, hkind, hp⟩
    · next hp => exact .inl ⟨rfl, fun _ => hp none⟩
  · next hkind => exact .inl ⟨rfl, fun h => absurd h hkind⟩

/-! ### Sites and tokens -/

/-- A site of a padded context is the site itself, or a new node in the place of an absent one. -/
inductive Site.PaddedInto (ctx ctx' : Context) : Site → Site → Prop where
  | decl {o o' : Option DeclId} (h : Pads (ctx.NewDecl ctx') o o') :
    PaddedInto ctx ctx' (.decl o) (.decl o')
  | stmt {o o' : Option StmtId} (h : Pads (ctx.NewStmt ctx') o o') :
    PaddedInto ctx ctx' (.stmt o) (.stmt o')
  | comment {o o' : Option CommentId} (h : Pads (ctx.NewComment ctx') o o') :
    PaddedInto ctx ctx' (.comment o) (.comment o')

theorem Site.paddedInto_of_visit? {s : Site} {v : Visit} (h : s.visit? = some v) :
    s.PaddedInto ctx ctx' s := by
  cases s <;> obtain ⟨id, rfl, -⟩ := Option.map_eq_some_iff.mp h
  · exact .decl (.held id)
  · exact .stmt (.held id)
  · exact .comment (.held id)

theorem Site.PaddedInto.eq_of_visit? {s s' : Site} (h : s.PaddedInto ctx ctx' s') {v : Visit}
    (hv : s.visit? = some v) : s' = s := by
  cases h with
  | decl ho | stmt ho | comment ho =>
    cases ho with
    | held id => rfl
    | absent => cases hv

/-- Tokens are the same but for the sites that they define. -/
inductive Token.PaddedInto (ctx ctx' : Context) : Token Item → Token Item → Prop where
  | define {s s' : Site} (h : s.PaddedInto ctx ctx' s') :
    PaddedInto ctx ctx' (.leaf (.define s)) (.leaf (.define s'))
  | other {t : Token Item} (h : t.isDefine = false) : PaddedInto ctx ctx' t t

namespace Layout

/-! ### Layouts that are padded -/

variable (ctx ctx') in
/-- `l'` is `l` with new nodes in the absent slots, unless `l` has a fault. -/
def PaddedInto (l l' : Layout) : Prop :=
  Faultless l.tree.tokens → List.Forall₂ (Token.PaddedInto ctx ctx') l.tree.tokens l'.tree.tokens

/-- What carries over unchanged has nothing to be padded where it defines no absent node. -/
theorem paddedInto_of_carries {l l' : Layout} (h : Carries .refl l l')
    (hheld : ∀ s, .leaf (.define s) ∈ l.tree.tokens → s.visit?.isSome) : PaddedInto ctx ctx' l l' := by
  intro hfault
  rw [h hfault, Token.rename_refl, List.map_id]
  refine List.forall₂_same.mpr fun t ht => ?_
  cases t with
  | container | variant | close | tag => exact .other rfl
  | leaf a =>
    cases a with
    | scalar | identity | location | fault => exact .other rfl
    | define s =>
      obtain ⟨v, hv⟩ := Option.isSome_iff_exists.mp (hheld s ht)
      exact .define (Site.paddedInto_of_visit? hv)

theorem paddedInto_fault (e : ExportError) (l : Layout) : PaddedInto ctx ctx' (fault e) l :=
  fun h => absurd (List.mem_singleton_self _) (h e)

theorem paddedInto_define {s s' : Site} (h : s.PaddedInto ctx ctx' s') :
    PaddedInto ctx ctx' (.leaf (.define s)) (.leaf (.define s')) :=
  fun _ => .cons (.define h) .nil

/-- The outline of a layout tells which nodes the layout defines. -/
theorem visit?_of_define (owner : Option Item) {l : Layout} (hplaced : Tree.Placed (outline owner l))
    (hmarks : ∀ s, Mark.define s ∈ outline owner l → s.visit?.isSome) :
    ∀ s, .leaf (.define s) ∈ l.tree.tokens → s.visit?.isSome := fun s hs =>
  hmarks s ((Tree.slot_of_define hplaced hs).resolve_right List.not_mem_nil)

/-! ### Containers -/

theorem forall₂_flatMap_tokens {ls ls' : List Layout}
    (h : List.Forall₂ (PaddedInto ctx ctx') ls ls') : Faultless (ls.flatMap fun l => l.tree.tokens) →
    List.Forall₂ (Token.PaddedInto ctx ctx') (ls.flatMap fun l => l.tree.tokens)
      (ls'.flatMap fun l => l.tree.tokens) := by
  induction h with
  | nil => exact fun _ => .nil
  | @cons l l' ls ls' hl _ ih =>
    intro hfault
    rw [List.flatMap_cons] at hfault
    have hfirst : Faultless l.tree.tokens := hfault.of_subset (List.subset_append_left _ _)
    have hrest := hfault.of_subset (List.subset_append_right _ _)
    rw [List.flatMap_cons, List.flatMap_cons]
    exact List.rel_append (hl hfirst) (ih hrest)

/-- A container or variant is padded with what is in it. -/
theorem forall₂_closed {t : Token Item} {ts ts' : List (Token Item)} (ht : t.isDefine = false)
    (hts : Faultless ts → List.Forall₂ (Token.PaddedInto ctx ctx') ts ts') :
    Faultless (t :: (ts ++ [.close])) →
      List.Forall₂ (Token.PaddedInto ctx ctx') (t :: (ts ++ [.close])) (t :: (ts' ++ [.close])) := by
  intro hfault
  have hinner : Faultless ts :=
    hfault.of_subset fun _ ht => List.mem_cons_of_mem _ (List.mem_append_left _ ht)
  exact .cons (.other ht) (List.rel_append (hts hinner) (.cons (.other rfl) .nil))

theorem paddedInto_array {ls ls' : List Layout} (n n' : Nat)
    (h : List.Forall₂ (PaddedInto ctx ctx') ls ls') :
    PaddedInto ctx ctx' (array n ls) (array n' ls') := by
  rw [PaddedInto, tokens_array, tokens_array, ← h.length_eq]
  exact forall₂_closed rfl (forall₂_flatMap_tokens h)

theorem paddedInto_tuple {ls ls' : List Layout} (n n' : Nat)
    (h : List.Forall₂ (PaddedInto ctx ctx') ls ls') :
    PaddedInto ctx ctx' (tuple n ls) (tuple n' ls') := by
  rw [PaddedInto, tokens_tuple, tokens_tuple, ← h.length_eq]
  exact forall₂_closed rfl (forall₂_flatMap_tokens h)

theorem paddedInto_variant {l l' : Layout} (tag : String) (h : PaddedInto ctx ctx' l l') :
    PaddedInto ctx ctx' (variant tag l) (variant tag l') := by
  rw [PaddedInto, tokens_variant, tokens_variant]
  exact forall₂_closed rfl h

/-- A node is padded level by level. -/
theorem paddedInto_node {κ : Type} [NodeKind κ] (k : κ) {level level' : κ → List Layout}
    (h : ∀ a ∈ NodeKind.lineage k, List.Forall₂ (PaddedInto ctx ctx') (level a) (level' a)) :
    PaddedInto ctx ctx' (node k level) (node k level') := by
  have hlevels : ∀ ks : List κ,
      (∀ a ∈ ks, List.Forall₂ (PaddedInto ctx ctx') (level a) (level' a)) →
      List.Forall₂ (PaddedInto ctx ctx') (ks.flatMap level) (ks.flatMap level') := by
    intro ks hks
    induction ks with
    | nil => exact .nil
    | cons k ks ih =>
      rw [List.flatMap_cons, List.flatMap_cons]
      exact List.rel_append (hks k List.mem_cons_self)
        (ih fun a ha => hks a (List.mem_cons_of_mem k ha))
  rw [node, node]
  split
  · exact paddedInto_fault _ _
  · exact paddedInto_variant _ (paddedInto_tuple _ _ (hlevels _ h))

/-- Slots that are defined one after the other. -/
theorem paddedInto_slots {α : Type} {new : α → Prop} {site : Option α → Site}
    (hsite : ∀ {o o'}, Pads new o o' → (site o).PaddedInto ctx ctx' (site o'))
    {os os' : List (Option α)} (h : List.Forall₂ (Pads new) os os') :
    PaddedInto ctx ctx' (list (fun o => .leaf (.define (site o))) os)
      (list (fun o => .leaf (.define (site o))) os') := by
  refine paddedInto_array _ _ ?_
  rw [List.forall₂_map_left_iff, List.forall₂_map_right_iff]
  exact h.imp fun o o' ho => paddedInto_define (hsite ho)

/-- Where nothing is missing, nothing is missing among what the slots were padded with. -/
theorem find?_eq_none_of_pads {α : Type} {new : α → Prop} {missing missing' : Option α → Bool}
    (h : ∀ {o o'}, Pads new o o' → missing o = false → missing' o' = false)
    {os os' : List (Option α)} (hos : List.Forall₂ (Pads new) os os')
    (hfind : os.find? missing = none) : os'.find? missing' = none := by
  induction hos with
  | nil => rfl
  | @cons o o' os os' ho _ ih =>
    rw [List.find?_eq_none] at hfind
    have hfirst : missing o = false := Bool.eq_false_iff.mpr (hfind o List.mem_cons_self)
    have hrest : os.find? missing = none :=
      List.find?_eq_none.mpr fun p hp => hfind p (List.mem_cons_of_mem o hp)
    rw [List.find?_cons, h ho hfirst]
    exact ih hrest

/-- What statements and comments begin with. -/
theorem paddedInto_info (n : NodeRef) (r : SourceRange) :
    PaddedInto ctx ctx' (.object 2 [("pointer", identity n), ("source_range", range r)])
      (.object 2 [("pointer", identity n), ("source_range", range r)]) := by
  have hcarries : Carries .refl (.object 2 [("pointer", identity n), ("source_range", range r)])
      (.object 2 [("pointer", identity n), ("source_range", range r)]) := by
    have hrange : Carries .refl (range r) (range r) := by simpa using carries_range (ρ := .refl) r
    refine carries_object _ _ ?_
    simp [hrange]
  refine paddedInto_of_carries hcarries fun s hs => ?_
  simp [range, tree, fieldTrees, itemTrees, Tree.tokens, Tree.tokensAppend, Tree.fieldTokens,
    Tree.itemTokens] at hs

/-! ### Comments -/

/-- The payload of a comment defines nothing. -/
theorem paddedInto_commentPayload (c : Comment) (level : CommentKind) :
    PaddedInto ctx ctx' (commentPayload c level) (commentPayload c level) := by
  have hcarries : Carries .refl (commentPayload c level) (commentPayload c level) := by
    simpa using carries_commentPayload (ρ := .refl) c level
  refine paddedInto_of_carries hcarries (visit?_of_define none ?_ ?_)
  · rw [outline_commentPayload]
    exact List.forall_mem_nil _
  · intro s hs
    rw [outline_commentPayload] at hs
    cases hs

theorem paddedInto_commentChildren (h : ctx.PaddedInto ctx') {c c' : Comment}
    (hc : List.Forall₂ (Pads (ctx.NewComment ctx')) c.children c'.children) :
    PaddedInto ctx ctx' (commentChildren ctx c) (commentChildren ctx' c') := by
  have hpresent : ∀ {o o' : Option CommentId}, Pads (ctx.NewComment ctx') o o' →
      isCommentMissing ctx o = false → isCommentMissing ctx' o' = false := by
    intro o o' ho hmissing
    cases ho with
    | absent hnew => simp [isCommentMissing, hnew.2]
    | held id =>
      rw [isCommentMissing, Option.isNone_eq_false_iff, Option.isSome_iff_exists] at hmissing
      obtain ⟨d, hd⟩ := hmissing
      obtain ⟨d', hd', -⟩ := h.comment hd
      simp [isCommentMissing, hd']
  rw [commentChildren, commentChildren]
  cases hfind : c.children.find? (isCommentMissing ctx) with
  | some child =>
    have hmissing := List.find?_some hfind
    cases child with
    | none => cases hmissing
    | some id => exact paddedInto_fault _ _
  | none =>
    rw [find?_eq_none_of_pads hpresent hc hfind]
    exact paddedInto_slots .comment hc

theorem paddedInto_commentNode (h : ctx.PaddedInto ctx') (n : NodeRef) {c c' : Comment}
    (hc : c.PaddedInto ctx ctx' c') :
    PaddedInto ctx ctx' (commentNode ctx n c) (commentNode ctx' n c') := by
  obtain ⟨children, hchildren, rfl⟩ := hc
  refine paddedInto_node c.kind fun level _ => ?_
  unfold commentLevel
  split
  · exact .cons (paddedInto_info n c.range) (.cons (paddedInto_commentChildren h hchildren) .nil)
  · split
    · exact .nil
    · exact .cons (paddedInto_commentPayload c _) .nil

/-! ### Statements -/

theorem paddedInto_stmtChildren (h : ctx.PaddedInto ctx') {s s' : Stmt}
    (hs : List.Forall₂ (Pads (ctx.NewStmt ctx')) s.children s'.children) :
    PaddedInto ctx ctx' (stmtChildren ctx s) (stmtChildren ctx' s') := by
  have hpresent : ∀ {o o' : Option StmtId}, Pads (ctx.NewStmt ctx') o o' →
      isStmtMissing ctx o = false → isStmtMissing ctx' o' = false := by
    intro o o' ho hmissing
    cases ho with
    | absent hnew => simp [isStmtMissing, hnew.2]
    | held id =>
      rw [isStmtMissing, Option.isNone_eq_false_iff, Option.isSome_iff_exists] at hmissing
      obtain ⟨d, hd⟩ := hmissing
      obtain ⟨d', hd', -⟩ := h.stmt hd
      simp [isStmtMissing, hd']
  rw [stmtChildren, stmtChildren]
  cases hfind : s.children.find? (isStmtMissing ctx) with
  | some child =>
    have hmissing := List.find?_some hfind
    cases child with
    | none => cases hmissing
    | some id => exact paddedInto_fault _ _
  | none =>
    rw [find?_eq_none_of_pads hpresent hs hfind]
    exact paddedInto_slots .stmt hs

theorem paddedInto_exprInfo (h : ctx.MentionedIn .refl ctx') (e : ExprInfo) :
    PaddedInto ctx ctx' (exprInfo ctx e) (exprInfo ctx' e) := by
  have houtline : outline none (exprInfo ctx e) = [] := by simp [exprInfo, -bne_iff_ne]
  refine paddedInto_of_carries (carries_exprInfo h e) (visit?_of_define none ?_ ?_)
  · rw [houtline]
    exact List.forall_mem_nil _
  · intro s hs
    rw [houtline] at hs
    cases hs

/-- An attribute defines nothing. -/
theorem notMem_attrMarks (id : AttrId) (s : Site) : Mark.define s ∉ attrMarks ctx id := by
  unfold attrMarks
  split <;> simp [Mark.define, Mark.range]

/-- The levels of blocks and lambdas alone define an absent node for a payload. -/
theorem visit?_of_define_stmtMarks {p : StmtPayload} {level : StmtKind}
    (hlevel : level = .blockExpr ∨ level = .lambdaExpr → p ≠ .ownedDecl none) {s : Site}
    (hs : Mark.define s ∈ stmtMarks ctx p level) : s.visit?.isSome := by
  unfold stmtMarks at hs
  split at hs
  all_goals try split at hs
  all_goals try exact absurd hs List.not_mem_nil
  -- declaration statements and catches
  all_goals try
    obtain ⟨d, -, hd⟩ := List.mem_map.mp hs
    cases hd
    rfl
  · obtain ⟨id, -, hid⟩ := List.mem_flatMap.mp hs
    exact absurd hid (notMem_attrMarks id s)
  -- blocks and lambdas
  all_goals
    next d =>
      cases List.mem_singleton.mp hs
      cases d with
      | some id => rfl
      | none => exact absurd rfl (hlevel (by simp))

/-- A payload that is not padded defines no absent node. -/
theorem paddedInto_stmtPayload (h : ctx.MentionedIn .refl ctx') (s : Stmt) {level : StmtKind}
    (hlevel : level = .blockExpr ∨ level = .lambdaExpr → s.payload ≠ .ownedDecl none) :
    PaddedInto ctx ctx' (stmtPayload ctx s level) (stmtPayload ctx' s level) := by
  have hcarries : Carries .refl (stmtPayload ctx s level) (stmtPayload ctx' s level) := by
    simpa using carries_stmtPayload h s level
  refine paddedInto_of_carries hcarries (visit?_of_define none ?_ ?_)
  · rw [outline_stmtPayload]
    exact (Settled.stmtMarks s.payload level).1
  · intro u hu
    rw [outline_stmtPayload] at hu
    exact visit?_of_define_stmtMarks hlevel hu

/-- A statement is padded where its children and its payload are. -/
theorem paddedInto_stmtNode_of (h : ctx.PaddedInto ctx') (n : NodeRef) {s : Stmt}
    {children : List (Option StmtId)} {p : StmtPayload}
    (hchildren : List.Forall₂ (Pads (ctx.NewStmt ctx')) s.children children)
    (hpayload : ∀ level ∈ NodeKind.lineage s.kind, level ≠ .stmt → level ≠ .expr →
      PaddedInto ctx ctx' (stmtPayload ctx s level)
        (stmtPayload ctx' { s with children := children, payload := p } level)) :
    PaddedInto ctx ctx' (stmtNode ctx n s)
      (stmtNode ctx' n { s with children := children, payload := p }) := by
  refine paddedInto_node s.kind fun level hlevel => ?_
  unfold stmtLevel
  dsimp only
  split
  · exact .cons (paddedInto_info n s.range) (.cons (paddedInto_stmtChildren h hchildren) .nil)
  · split
    · exact .cons (paddedInto_exprInfo h.mentionedIn _) .nil
    · exact .cons (paddedInto_fault _ _) .nil
  · next hstmt hexpr =>
    split
    · exact .nil
    · exact .cons (hpayload level hlevel hstmt hexpr) .nil

/-- Above blocks and lambdas there are statements and expressions only, and nothing is below them. -/
theorem owner_iff_of_mem_lineage {k level : StmtKind} (hlevel : level ∈ NodeKind.lineage k)
    (hstmt : level ≠ .stmt) (hexpr : level ≠ .expr) :
    level = .blockExpr ∨ level = .lambdaExpr ↔ k = .blockExpr ∨ k = .lambdaExpr := by
  have habove : ∀ k : StmtKind, k = .blockExpr ∨ k = .lambdaExpr → ∀ level ∈ NodeKind.lineage k,
      level = .stmt ∨ level = .expr ∨ level = .blockExpr ∨ level = .lambdaExpr := by
    rintro k (rfl | rfl) <;> decide
  have hbelow : ∀ level : StmtKind, level = .blockExpr ∨ level = .lambdaExpr → ∀ k,
      level ∈ NodeKind.lineage k → k = .blockExpr ∨ k = .lambdaExpr := by
    rintro level (rfl | rfl) k hk <;> revert hk <;> cases k <;> decide
  refine ⟨fun h => hbelow level h k hlevel, fun h => ?_⟩
  rcases habove k h level hlevel with hl | hl | hl
  · exact absurd hl hstmt
  · exact absurd hl hexpr
  · exact hl

theorem paddedInto_stmtNode (h : ctx.PaddedInto ctx') (n : NodeRef) {s s' : Stmt}
    (hs : s.PaddedInto ctx ctx' s') :
    PaddedInto ctx ctx' (stmtNode ctx n s) (stmtNode ctx' n s') := by
  obtain ⟨children, owned, hchildren, howned, rfl⟩ := hs
  -- a payload that is not padded
  have hsame : (s.kind = .blockExpr ∨ s.kind = .lambdaExpr → s.payload ≠ .ownedDecl none) →
      PaddedInto ctx ctx' (stmtNode ctx n s) (stmtNode ctx' n { s with children := children }) := by
    intro hheld
    refine paddedInto_stmtNode_of h n hchildren fun level hlevel hstmt hexpr => ?_
    have howner := owner_iff_of_mem_lineage hlevel hstmt hexpr
    exact paddedInto_stmtPayload h.mentionedIn s fun hl => hheld (howner.mp hl)
  rcases s.owned_eq with ⟨hnone, hheld⟩ | ⟨d, hd, hkind, hp⟩
  · rw [hnone] at howned
    cases howned
    exact hsame hheld
  rw [hd] at howned
  obtain ⟨d', hd', rfl⟩ : ∃ d', Pads (ctx.NewDecl ctx') d d' ∧ owned = [d'] := by
    cases howned with
    | cons hfirst hrest =>
      cases hrest
      exact ⟨_, hfirst, rfl⟩
  cases hd' with
  | held id =>
    have hheld : s.payload ≠ .ownedDecl none := by simp [hp]
    have hpayload : { s with children := children, payload := .ownedDecl (some id) }
        = { s with children := children } := by rw [← hp]
    have hnode := hsame fun _ => hheld
    rw [← hpayload] at hnode
    exact hnode
  | @absent id hnew =>
    refine paddedInto_stmtNode_of h n hchildren fun level hlevel hstmt hexpr => ?_
    have hdefine : PaddedInto ctx ctx' (.leaf (.define (.decl none)))
        (.leaf (.define (.decl (some id)))) := paddedInto_define (.decl (.absent hnew))
    rcases (owner_iff_of_mem_lineage hlevel hstmt hexpr).mpr hkind with rfl | rfl
    · rw [stmtPayload, hp]
      exact hdefine
    · rw [stmtPayload, hp]
      exact hdefine

/-! ### Declarations -/

/-- The marks of visits are for nodes that are present. -/
theorem visit?_of_define_visits {vs : List Visit} {s : Site}
    (hs : Mark.define s ∈ vs.flatMap Visit.marks) : s.visit?.isSome := by
  obtain ⟨v, -, hv⟩ := List.mem_flatMap.mp hs
  cases v with
  | decl id | stmt id | comment id =>
    cases List.mem_singleton.mp hv
    rfl
  | type id => simp [Visit.marks, Mark.define] at hv

theorem visit?_of_define_typeList {owner : Option Item} {s : Site}
    (hs : Mark.define s ∈ outline owner (typeList ctx)) : s.visit?.isSome := by
  rw [outline_typeList] at hs
  rcases List.mem_append.mp hs with htype | hnone
  · obtain ⟨t, -, ht⟩ := List.mem_flatMap.mp htype
    split at ht
    · cases ht
    · exact visit?_of_define_visits (List.mem_flatMap.mpr ⟨_, List.mem_singleton_self _, ht⟩)
  · simp [noTypeMarks, Mark.define] at hnone

theorem visit?_of_define_declMarks {owner : Option Item} {opts : Options} {d : Decl}
    {level : DeclKind} {s : Site} (hs : Mark.define s ∈ declMarks owner ctx opts d level) :
    s.visit?.isSome := by
  rw [declMarks] at hs
  rcases List.mem_append.mp hs with hs | hpayload
  · rcases List.mem_append.mp hs with hchild | htype
    · split at hchild
      · unfold childMarks at hchild
        split at hchild
        · cases hchild
        · exact visit?_of_define_visits hchild
      · cases hchild
    · split at htype
      · exact visit?_of_define_typeList htype
      · cases htype
  · rcases List.mem_append.mp hpayload with hdefinition | hplace
    · exact visit?_of_define_visits hdefinition
    · simp [Mark.place, Mark.define] at hplace

/-- A declaration defines no absent node. -/
theorem visit?_of_define_declNode {n : NodeRef} {d : Decl} {s : Site} {opts : Options}
    (hs : Mark.define s ∈ outline none (declNode ctx opts n d)) : s.visit?.isSome := by
  rw [outline_declNode] at hs
  split at hs
  · cases hs
  rcases List.mem_append.mp hs with hinfo | hlevel
  · have hinfo := (List.mem_cons.mp hinfo).resolve_left nofun
    rw [outline_declInfo] at hinfo
    rcases List.mem_append.mp hinfo with hattr | hcomment
    · have hattr := (List.mem_cons.mp ((List.mem_cons.mp hattr).resolve_left nofun)).resolve_left nofun
      obtain ⟨id, -, hid⟩ := List.mem_flatMap.mp hattr
      exact absurd hid (notMem_attrMarks id s)
    · obtain ⟨id, -, hid⟩ := List.mem_map.mp hcomment
      cases hid
      rfl
  · obtain ⟨level, -, hlevel⟩ := List.mem_flatMap.mp hlevel
    exact visit?_of_define_declMarks hlevel

theorem paddedInto_declNode (h : ctx.MentionedIn .refl ctx') {opts : Options}
    (hfilter : ∀ d, opts.keeps ctx' d = opts.keeps ctx d) (n : NodeRef) (d : Decl)
    (hplaced : Tree.Placed (outline none (declNode ctx opts n d))) :
    PaddedInto ctx ctx' (declNode ctx opts n d) (declNode ctx' opts n d) := by
  have hkeeps : opts.KeepsRenamed .refl ctx ctx' := by
    intro d keep hkeep
    rw [Decl.rename_refl, id, hfilter]
    exact hkeep
  have hcarries : Carries .refl (declNode ctx opts n d) (declNode ctx' opts n d) := by
    simpa using carries_declNode h hkeeps n d
  refine paddedInto_of_carries hcarries (visit?_of_define none hplaced fun s hs => ?_)
  exact visit?_of_define_declNode hs

end Layout

/-! ### Sites -/

/-- A site that is present is padded, unless its layout has a fault. -/
theorem Site.paddedInto_layout (h : ctx.PaddedInto ctx') {opts : Options}
    (hfilter : ∀ d, opts.keeps ctx' d = opts.keeps ctx d) {s : Site} {v : Visit}
    (hs : s.visit? = some v) :
    Layout.PaddedInto ctx ctx' (s.layout ctx opts) (s.layout ctx' opts) := by
  have hplaced : Tree.Placed (Layout.outline none (s.layout ctx opts)) := (Settled.layout opts s).1
  cases s with
  | decl o =>
    obtain ⟨id, rfl, -⟩ := Option.map_eq_some_iff.mp hs
    rw [layout] at hplaced ⊢
    cases hd : ctx.decl? id with
    | none => exact Layout.paddedInto_fault _ _
    | some d =>
      simp only [hd] at hplaced
      simp only [layout, h.decl hd]
      exact Layout.paddedInto_declNode h.mentionedIn hfilter (.decl id) d hplaced
  | stmt o =>
    obtain ⟨id, rfl, -⟩ := Option.map_eq_some_iff.mp hs
    rw [layout]
    cases hs : ctx.stmt? id with
    | none => exact Layout.paddedInto_fault _ _
    | some s =>
      obtain ⟨s', hs', hpadded⟩ := h.stmt hs
      simp only [layout, hs']
      exact Layout.paddedInto_stmtNode h (.stmt id) hpadded
  | comment o =>
    obtain ⟨id, rfl, -⟩ := Option.map_eq_some_iff.mp hs
    rw [layout]
    cases hc : ctx.comment? id with
    | none => exact Layout.paddedInto_fault _ _
    | some c =>
      obtain ⟨c', hc', hpadded⟩ := h.comment hc
      simp only [layout, hc']
      exact Layout.paddedInto_commentNode h (.comment id) hpadded

end SyntaxExport
